namespace ReactivePage

universe u v

def putEntry {κ : Type u} {α : Type v} [Ord κ] (k : κ) (a : α) : List (κ × α) → List (κ × α)
  | [] => [(k, a)]
  | (k', a') :: rest =>
    match compare k k' with
    | .lt => (k, a) :: (k', a') :: rest
    | .eq => (k, a) :: rest
    | .gt => (k', a') :: putEntry k a rest

def findEntry {κ : Type u} {α : Type v} [Ord κ] (k : κ) : List (κ × α) → Option α
  | [] => none
  | (k', a) :: rest => if compare k k' = .eq then some a else findEntry k rest

def dropEntry {κ : Type u} {α : Type v} [Ord κ] (k : κ) (entries : List (κ × α)) :
    List (κ × α) :=
  entries.filter fun e => compare k e.1 ≠ .eq

abbrev KeySorted {κ : Type u} {α : Type v} [Ord κ] (entries : List (κ × α)) : Prop :=
  entries.Pairwise fun a b => compare a.1 b.1 = .lt

section Entries

variable {κ : Type u} {α : Type v} [Ord κ]

theorem mem_putEntry {k : κ} {a : α} {entries : List (κ × α)} {e : κ × α}
    (h : e ∈ putEntry k a entries) : e = (k, a) ∨ e ∈ entries := by
  induction entries with
  | nil => simpa [putEntry] using h
  | cons e' rest ih =>
    obtain ⟨k', a'⟩ := e'
    unfold putEntry at h
    split at h
    · simpa using h
    · simp only [List.mem_cons] at h ⊢
      exact h.imp_right Or.inr
    · rcases List.mem_cons.1 h with rfl | h
      · simp
      · exact (ih h).imp_right (List.mem_cons_of_mem _)

theorem KeySorted.dropEntry {entries : List (κ × α)} (h : KeySorted entries) (k : κ) :
    KeySorted (dropEntry k entries) :=
  List.Pairwise.filter _ h

theorem findEntry_eq_none_of_lt {k : κ} {entries : List (κ × α)}
    (h : ∀ e ∈ entries, compare k e.1 = .lt) : findEntry k entries = none := by
  induction entries with
  | nil => rfl
  | cons e rest ih =>
    have hlt := h e (by simp)
    simp only [findEntry, hlt, reduceCtorEq, if_false]
    exact ih fun e' he' => h e' (by simp [he'])

variable [Std.LawfulEqOrd κ]

theorem findEntry_putEntry (k k' : κ) (a : α) (entries : List (κ × α)) :
    findEntry k (putEntry k' a entries)
      = if compare k k' = .eq then some a else findEntry k entries := by
  induction entries with
  | nil => rfl
  | cons e rest ih =>
    obtain ⟨j, b⟩ := e
    unfold putEntry
    split
    · rfl
    · next heq =>
      obtain rfl := Std.LawfulEqCmp.eq_of_compare heq
      by_cases h : compare k k' = .eq <;> simp [findEntry, h]
    · next hgt =>
      by_cases h : compare k k' = .eq
      · obtain rfl := Std.LawfulEqCmp.eq_of_compare h
        simp [findEntry, hgt, ih]
      · by_cases hj : compare k j = .eq <;> simp [findEntry, h, hj, ih]

theorem findEntry_dropEntry (k k' : κ) (entries : List (κ × α)) :
    findEntry k (dropEntry k' entries)
      = if compare k k' = .eq then none else findEntry k entries := by
  induction entries with
  | nil => simp [dropEntry, findEntry]
  | cons e rest ih =>
    obtain ⟨j, b⟩ := e
    unfold dropEntry at ih ⊢
    by_cases hj : compare k' j = .eq
    · obtain rfl := Std.LawfulEqCmp.eq_of_compare hj
      simp only [List.filter_cons, hj, ne_eq, not_true_eq_false, decide_false,
        Bool.false_eq_true, if_false, ih, findEntry]
      split <;> rfl
    · simp only [List.filter_cons, ne_eq, hj, not_false_eq_true, decide_true, if_true,
        findEntry, ih]
      by_cases h : compare k k' = .eq
      · obtain rfl := Std.LawfulEqCmp.eq_of_compare h
        simp [hj]
      · simp [h]

variable [Std.TransOrd κ]

theorem KeySorted.putEntry {entries : List (κ × α)} (h : KeySorted entries) (k : κ) (a : α) :
    KeySorted (putEntry k a entries) := by
  induction entries with
  | nil => simp [ReactivePage.putEntry, KeySorted]
  | cons e rest ih =>
    obtain ⟨k', a'⟩ := e
    obtain ⟨hk, hrest⟩ := List.pairwise_cons.1 h
    unfold ReactivePage.putEntry
    split
    · next hlt =>
      refine List.pairwise_cons.2 ⟨fun e he => ?_, h⟩
      rcases List.mem_cons.1 he with rfl | he
      · exact hlt
      · exact Std.TransCmp.lt_trans hlt (hk e he)
    · next heq =>
      obtain rfl := Std.LawfulEqCmp.eq_of_compare heq
      exact List.pairwise_cons.2 ⟨hk, hrest⟩
    · next hgt =>
      refine List.pairwise_cons.2 ⟨fun e he => ?_, ih hrest⟩
      rcases mem_putEntry he with rfl | he
      · exact Std.OrientedCmp.gt_iff_lt.1 hgt
      · exact hk e he

end Entries

/-- A finite map whose pairs are listed by increasing key. -/
structure Dict (κ : Type u) (α : Type v) [Ord κ] where
  toList : List (κ × α)
  sorted : KeySorted toList

namespace Dict

variable {κ : Type u} {α : Type v} [Ord κ]

def empty : Dict κ α := ⟨[], List.Pairwise.nil⟩

instance : EmptyCollection (Dict κ α) := ⟨empty⟩

instance : Inhabited (Dict κ α) := ⟨empty⟩

instance [DecidableEq κ] [DecidableEq α] : DecidableEq (Dict κ α) := fun a b =>
  decidable_of_iff (a.toList = b.toList)
    ⟨fun h => by cases a; cases b; simp_all, fun h => h ▸ rfl⟩

def find? (d : Dict κ α) (k : κ) : Option α := findEntry k d.toList

def contains (d : Dict κ α) (k : κ) : Bool := (d.find? k).isSome

def size (d : Dict κ α) : Nat := d.toList.length

def isEmpty (d : Dict κ α) : Bool := d.toList.isEmpty

def keys (d : Dict κ α) : List κ := d.toList.map Prod.fst

def values (d : Dict κ α) : List α := d.toList.map Prod.snd

def map {β : Type v} (f : α → β) (d : Dict κ α) : Dict κ β where
  toList := d.toList.map fun e => (e.1, f e.2)
  sorted := List.pairwise_map.2 d.sorted

def filter (keep : κ → α → Bool) (d : Dict κ α) : Dict κ α where
  toList := d.toList.filter fun e => keep e.1 e.2
  sorted := List.Pairwise.filter _ d.sorted

@[simp] theorem find?_empty (k : κ) : (∅ : Dict κ α).find? k = none := rfl

variable [Std.TransOrd κ] [Std.LawfulEqOrd κ]

def insert (d : Dict κ α) (k : κ) (a : α) : Dict κ α :=
  ⟨putEntry k a d.toList, d.sorted.putEntry k a⟩

def erase (d : Dict κ α) (k : κ) : Dict κ α :=
  ⟨dropEntry k d.toList, d.sorted.dropEntry k⟩

/-- Of several pairs with one key the last wins. -/
def ofList (entries : List (κ × α)) : Dict κ α :=
  entries.foldl (fun d e => d.insert e.1 e.2) ∅

def modify (d : Dict κ α) (k : κ) (f : α → α) : Dict κ α :=
  match d.find? k with
  | some a => d.insert k (f a)
  | none => d

theorem find?_insert (d : Dict κ α) (k k' : κ) (a : α) :
    (d.insert k a).find? k' = if compare k' k = .eq then some a else d.find? k' :=
  findEntry_putEntry k' k a d.toList

@[simp] theorem find?_insert_self (d : Dict κ α) (k : κ) (a : α) :
    (d.insert k a).find? k = some a := by
  simp [find?_insert]

theorem find?_insert_of_ne (d : Dict κ α) {k k' : κ} (h : k' ≠ k) (a : α) :
    (d.insert k a).find? k' = d.find? k' := by
  rw [find?_insert, if_neg fun e => h (Std.LawfulEqCmp.eq_of_compare e)]

omit [Std.TransOrd κ] in
theorem find?_erase (d : Dict κ α) (k k' : κ) :
    (d.erase k).find? k' = if compare k' k = .eq then none else d.find? k' :=
  findEntry_dropEntry k' k d.toList

omit [Std.TransOrd κ] in
@[simp] theorem find?_erase_self (d : Dict κ α) (k : κ) : (d.erase k).find? k = none := by
  simp [find?_erase]

omit [Std.TransOrd κ] in
theorem find?_erase_of_ne (d : Dict κ α) {k k' : κ} (h : k' ≠ k) :
    (d.erase k).find? k' = d.find? k' := by
  rw [find?_erase, if_neg fun e => h (Std.LawfulEqCmp.eq_of_compare e)]

theorem ext_entries {xs ys : List (κ × α)} (hx : KeySorted xs) (hy : KeySorted ys)
    (h : ∀ k, findEntry k xs = findEntry k ys) : xs = ys := by
  induction xs generalizing ys with
  | nil =>
    cases ys with
    | nil => rfl
    | cons e ys => simpa [findEntry] using h e.1
  | cons x xs ih =>
    cases ys with
    | nil => simpa [findEntry] using h x.1
    | cons y ys =>
      obtain ⟨j, a⟩ := x
      obtain ⟨k, b⟩ := y
      obtain ⟨hj, hxs⟩ := List.pairwise_cons.1 hx
      obtain ⟨hk, hys⟩ := List.pairwise_cons.1 hy
      have hjk : compare j k = .eq := by
        cases hc : compare j k with
        | eq => rfl
        | lt =>
          have hnone : findEntry j ys = none := findEntry_eq_none_of_lt fun e he =>
            Std.TransCmp.lt_trans hc (hk e he)
          simpa [findEntry, hc, hnone] using h j
        | gt =>
          have hlt : compare k j = .lt := Std.OrientedCmp.gt_iff_lt.1 hc
          have hnone : findEntry k xs = none := findEntry_eq_none_of_lt fun e he =>
            Std.TransCmp.lt_trans hlt (hj e he)
          simpa [findEntry, hlt, hnone] using h k
      obtain rfl := Std.LawfulEqCmp.eq_of_compare hjk
      have hab : a = b := by simpa [findEntry] using h j
      subst hab
      congr 1
      refine ih hxs hys fun k' => ?_
      by_cases hk' : compare k' j = .eq
      · obtain rfl := Std.LawfulEqCmp.eq_of_compare hk'
        rw [findEntry_eq_none_of_lt hj, findEntry_eq_none_of_lt hk]
      · simpa [findEntry, hk'] using h k'

theorem ext_find? {d e : Dict κ α} (h : ∀ k, d.find? k = e.find? k) : d = e := by
  cases d with
  | mk xs hx =>
    cases e with
    | mk ys hy =>
      obtain rfl : xs = ys := ext_entries hx hy h
      rfl

end Dict

end ReactivePage
