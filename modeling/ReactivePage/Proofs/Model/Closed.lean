import ReactivePage.Proofs.Model.Frame

namespace ReactivePage

def Value.Within (n : Handle) : Value → Prop
  | .scalar _ => True
  | .ref c => c < n

instance (n : Handle) : (v : Value) → Decidable (v.Within n)
  | .scalar _ => inferInstanceAs (Decidable True)
  | .ref c => inferInstanceAs (Decidable (c < n))

theorem Dict.mem_values_of_find? {κ : Type} {α : Type} [Ord κ] [Std.LawfulEqOrd κ]
    {d : Dict κ α} {k : κ} {a : α} (h : d.find? k = some a) : a ∈ d.values :=
  List.mem_map.2 ⟨(k, a), Dict.mem_toList.2 h, rfl⟩

namespace Heap

structure Closed (h : Heap) : Prop where
  cells : ∀ c k, h.cells.find? c = some k → c < h.next
  values : ∀ c, ∀ v ∈ (h.contents c).values, v.Within h.next

theorem closed_empty : Closed empty where
  cells := by
    intro c k hk
    cases hk
  values := by
    intro c v hv
    cases hv

structure Extends (h h' : Heap) : Prop where
  next : h.next ≤ h'.next
  contents : ∀ c, c < h.next → h'.contents c = h.contents c

namespace Extends

variable {h h₁ h₂ : Heap}

theorem refl (h : Heap) : Extends h h := ⟨Nat.le_refl _, fun _ _ => rfl⟩

theorem trans (E : Extends h h₁) (F : Extends h₁ h₂) : Extends h h₂ where
  next := Nat.le_trans E.next F.next
  contents := by
    intro c hc
    rw [F.contents c (Nat.lt_of_lt_of_le hc E.next), E.contents c hc]

theorem create (h : Heap) (k : Contents) : Extends h (h.create k).2 where
  next := Nat.le_succ _
  contents := by
    intro c hc
    rw [Heap.contents, Heap.create, Dict.find?_insert_eq_ite, if_neg (Nat.ne_of_lt hc)]
    rfl

theorem setContents (E : Extends h h₁) {c : Handle} (hc : h.next ≤ c) (k : Contents) :
    Extends h (h₁.setContents c k) where
  next := E.next
  contents := by
    intro d hd
    rw [contents_setContents, if_neg (Nat.ne_of_lt (Nat.lt_of_lt_of_le hd hc)), E.contents d hd]

end Extends

mutual

theorem extends_ofJson (h : Heap) : (j : Json) → Extends h (h.ofJson j).2
  | .null => .refl h
  | .bool _ => .refl h
  | .number _ => .refl h
  | .string _ => .refl h
  | .array items => by
    simp only [ofJson]
    exact ((Extends.create h _).trans (extends_ofItems _ items)).setContents (Nat.le_refl _) _
  | .object members => by
    simp only [ofJson]
    exact ((Extends.create h _).trans (extends_ofMembers _ members)).setContents (Nat.le_refl _) _

theorem extends_ofItems (h : Heap) : (items : List Json) → Extends h (h.ofItems items).2
  | [] => .refl h
  | j :: rest => by
    simp only [ofItems]
    exact (extends_ofJson h j).trans (extends_ofItems _ rest)

theorem extends_ofMembers (h : Heap) :
    (members : List (String × Json)) → Extends h (h.ofMembers members).2
  | [] => .refl h
  | (_, j) :: rest => by
    simp only [ofMembers]
    exact (extends_ofJson h j).trans (extends_ofMembers _ rest)

end

theorem child?_mem {h : Heap} {c : Handle} {step : Step} {v : Value}
    (hv : h.child? (.ref c) step = some v) : v ∈ (h.contents c).values := by
  simp only [child?] at hv
  cases hk : h.contents c with
  | object fields =>
    rw [hk] at hv
    exact Dict.mem_values_of_find? hv
  | map entries =>
    rw [hk] at hv
    exact Dict.mem_values_of_find? hv
  | sequence items =>
    rw [hk] at hv
    obtain ⟨i, -, hi⟩ := Option.bind_eq_some_iff.1 hv
    exact List.mem_of_getElem? hi

namespace Closed

variable {h h' : Heap}

theorem within_child? (hc : h.Closed) {c : Handle} {step : Step} {v : Value}
    (hv : h.child? (.ref c) step = some v) : v.Within h.next :=
  hc.values c v (child?_mem hv)

theorem within_resolve? (hc : h.Closed) (steps : List Step) {v w : Value} (hv : v.Within h.next)
    (hw : h.resolve? v steps = some w) : w.Within h.next := by
  induction steps generalizing v with
  | nil =>
    cases hw
    exact hv
  | cons step rest ih =>
    obtain ⟨u, hu, hw⟩ := Option.bind_eq_some_iff.1 hw
    refine ih ?_ hw
    cases v with
    | scalar j =>
      obtain ⟨k, -, rfl⟩ := Option.map_eq_some_iff.1 hu
      trivial
    | ref c => exact hc.within_child? hu

theorem lt_of_mem_chainFrom (hc : h.Closed) (steps : List Step) {root : Handle}
    (hr : root < h.next) : ∀ c ∈ h.chainFrom root steps, c < h.next := by
  induction steps generalizing root with
  | nil => simpa [chainFrom] using hr
  | cons step rest ih =>
    cases rest with
    | nil => simpa [chainFrom] using hr
    | cons next rest =>
      rw [chainFrom]
      split
      · next d hd =>
        rw [List.forall_mem_cons]
        exact ⟨hr, ih (hc.within_child? hd)⟩
      · simpa using hr

theorem lt_of_mem_chain (hc : h.Closed) {root : Handle} (hr : root < h.next) (path : Path) :
    ∀ c ∈ h.chain root path, c < h.next :=
  hc.lt_of_mem_chainFrom path.steps hr

theorem within_lookup? (hc : h.Closed) {root : Handle} (hr : root < h.next) {path : Path}
    {v : Value} (hv : h.lookup? root path = some v) : v.Within h.next :=
  hc.within_resolve? path.steps (v := .ref root) hr hv

theorem chainFrom_resolve?_extends (hc : h.Closed) (E : Extends h h') (steps : List Step)
    {root : Handle} (hr : root < h.next) :
    h'.chainFrom root steps = h.chainFrom root steps ∧
      h'.resolve? (.ref root) steps = h.resolve? (.ref root) steps := by
  -- By induction on the steps, each of which stays among the old containers.
  induction steps generalizing root with
  | nil => exact ⟨rfl, rfl⟩
  | cons step rest ih =>
    have hchild : h'.child? (.ref root) step = h.child? (.ref root) step := by
      simp only [child?, E.contents root hr]
    have hresolve :
        h'.resolve? (.ref root) (step :: rest) = h.resolve? (.ref root) (step :: rest) := by
      rw [resolve?, resolve?, hchild]
      cases hv : h.child? (.ref root) step with
      | none => rfl
      | some v =>
        cases v with
        | scalar j => exact resolve?_scalar h h' j rest
        | ref d => exact (ih (hc.within_child? hv)).2
    refine ⟨?_, hresolve⟩
    cases rest with
    | nil => rfl
    | cons next rest =>
      rw [chainFrom, chainFrom, hchild]
      cases hv : h.child? (.ref root) step with
      | none => rfl
      | some v =>
        cases v with
        | scalar j => rfl
        | ref d => exact congrArg (root :: ·) (ih (hc.within_child? hv)).1

theorem chain_extends (hc : h.Closed) (E : Extends h h') {root : Handle} (hr : root < h.next)
    (path : Path) : h'.chain root path = h.chain root path :=
  (hc.chainFrom_resolve?_extends E path.steps hr).1

theorem lookup?_extends (hc : h.Closed) (E : Extends h h') {root : Handle} (hr : root < h.next)
    (path : Path) : h'.lookup? root path = h.lookup? root path :=
  (hc.chainFrom_resolve?_extends E path.steps hr).2

end Closed

theorem Extends.isKeyed {h h' : Heap} (E : Extends h h') {c : Handle} (hc : c < h.next) :
    h'.isKeyed c = h.isKeyed c := by
  rw [isKeyed_eq, isKeyed_eq, E.contents c hc]

theorem Extends.kind_value {h h' : Heap} (E : Extends h h') {v : Value} (hv : v.Within h.next) :
    h'.kind v = h.kind v := by
  cases v with
  | scalar j => rfl
  | ref c => exact congrArg Contents.kind (E.contents c hv)

end Heap

theorem Value.Within.mono {m n : Handle} {v : Value} (hv : v.Within m) (h : m ≤ n) :
    v.Within n := by
  cases v with
  | scalar j => trivial
  | ref c => exact Nat.lt_of_lt_of_le hv h

def Write.Within (n : Handle) : Write → Prop
  | .put c _ v => c < n ∧ v.Within n
  | .erase c _ => c < n
  | .splice c _ _ insert => c < n ∧ ∀ v ∈ insert, v.Within n

namespace Heap

theorem Closed.create {h : Heap} (hc : h.Closed) {k : Contents}
    (hk : ∀ v ∈ k.values, v.Within (h.next + 1)) : (h.create k).2.Closed where
  cells := by
    intro c k' h'
    simp only [Heap.create, Dict.find?_insert_eq_ite] at h'
    split at h'
    · next heq => exact heq ▸ Nat.lt_succ_self _
    · exact Nat.lt_succ_of_lt (hc.cells c k' h')
  values := by
    intro c v hv
    rw [contents, Heap.create, Dict.find?_insert_eq_ite] at hv
    split at hv
    · exact hk v hv
    · exact (hc.values c v hv).mono (Nat.le_succ _)

theorem Closed.setContents {h : Heap} (hc : h.Closed) {c : Handle} (hlt : c < h.next)
    {k : Contents} (hk : ∀ v ∈ k.values, v.Within h.next) : (h.setContents c k).Closed where
  cells := by
    intro d k' h'
    simp only [Heap.setContents, Dict.find?_insert_eq_ite] at h'
    split at h'
    · next heq => exact heq ▸ hlt
    · exact hc.cells d k' h'
  values := by
    intro d v hv
    rw [contents_setContents] at hv
    split at hv
    · exact hk v hv
    · exact hc.values d v hv

theorem Closed.updateEntries {h : Heap} (hc : h.Closed) {c : Handle} (hlt : c < h.next)
    {f : Dict String Value → Dict String Value}
    (hf : ∀ d : Dict String Value, (∀ v ∈ d.values, v.Within h.next) →
      ∀ v ∈ (f d).values, v.Within h.next) : (h.updateEntries c f).Closed := by
  have hv := hc.values c
  rw [Heap.updateEntries]
  cases hk : h.contents c with
  | object fields =>
    rw [hk] at hv
    exact hc.setContents hlt (hf fields hv)
  | map entries =>
    rw [hk] at hv
    exact hc.setContents hlt (hf entries hv)
  | sequence items => exact hc

theorem values_insert {d : Dict String Value} {key : String} {a v : Value}
    (hv : v ∈ (d.insert key a).values) : v = a ∨ v ∈ d.values := by
  obtain ⟨e, he, rfl⟩ := List.mem_map.1 hv
  rcases mem_putEntry he with rfl | he
  · exact .inl rfl
  · exact .inr (List.mem_map_of_mem he)

theorem values_erase {d : Dict String Value} {key : String} {v : Value}
    (hv : v ∈ (d.erase key).values) : v ∈ d.values := by
  obtain ⟨e, he, rfl⟩ := List.mem_map.1 hv
  exact List.mem_map_of_mem (List.mem_filter.1 he).1

theorem mem_spliceList {α : Type} {items insert : List α} {index remove : Nat} {a : α}
    (ha : a ∈ (spliceList items index remove insert).1) : a ∈ items ∨ a ∈ insert := by
  simp only [spliceList, List.mem_append] at ha
  rcases ha with (ha | ha) | ha
  · exact .inl (List.mem_of_mem_take ha)
  · exact .inr ha
  · exact .inl (List.mem_of_mem_drop (List.mem_of_mem_drop ha))

theorem Closed.write {h : Heap} (hc : h.Closed) {w : Write} (hw : w.Within h.next) :
    (h.write w).1.Closed := by
  cases w with
  | put c key a =>
    rw [Heap.write]
    split
    · refine hc.updateEntries hw.1 fun d hd v hv => ?_
      rcases values_insert hv with rfl | hv
      · exact hw.2
      · exact hd v hv
    · exact hc
  | erase c key =>
    rw [Heap.write]
    split
    · exact hc.updateEntries hw fun d hd v hv => hd v (values_erase hv)
    · exact hc
  | splice c index remove insert =>
    rw [Heap.write]
    split
    · next items hk =>
      simp only
      split
      · exact hc
      · refine hc.setContents hw.1 fun v hv => ?_
        rcases mem_spliceList hv with hv | hv
        · exact hc.values c v (by rwa [hk])
        · exact hw.2 v hv
    · exact hc

theorem closed_iff {h : Heap} : h.Closed ↔
    ∀ e ∈ h.cells.toList, e.1 < h.next ∧ ∀ v ∈ e.2.values, v.Within h.next := by
  constructor
  · rintro hc ⟨c, k⟩ he
    have hcell := Dict.mem_toList.1 he
    refine ⟨hc.cells c k hcell, fun v hv => hc.values c v ?_⟩
    rw [contents, hcell]
    exact hv
  · intro hall
    refine ⟨fun c k hcell => (hall (c, k) (Dict.mem_toList.2 hcell)).1, fun c v hv => ?_⟩
    rw [contents] at hv
    cases hcell : h.cells.find? c with
    | none =>
      rw [hcell] at hv
      cases hv
    | some k =>
      rw [hcell] at hv
      exact (hall (c, k) (Dict.mem_toList.2 hcell)).2 v hv

instance (h : Heap) : Decidable h.Closed := decidable_of_iff' _ closed_iff

end Heap

end ReactivePage
