import ReactivePage.Dict
import Mathlib.Data.List.Nodup
import Mathlib.Data.List.Perm.Basic
import Mathlib.Algebra.BigOperators.Group.List.Basic
import Mathlib.Algebra.GroupWithZero.Nat

namespace ReactivePage

universe u v

section Entries

variable {κ : Type u} {α : Type v} [Ord κ]

theorem findEntry_eq_some_of_mem [Std.LawfulEqOrd κ] {entries : List (κ × α)}
    (h : KeySorted entries) {k : κ} {a : α} (hm : (k, a) ∈ entries) :
    findEntry k entries = some a := by
  induction entries with
  | nil => simp at hm
  | cons e rest ih =>
    obtain ⟨j, b⟩ := e
    obtain ⟨hj, hrest⟩ := List.pairwise_cons.1 h
    rcases List.mem_cons.1 hm with heq | hm
    · cases heq
      simp [findEntry]
    · have hne : compare k j ≠ .eq := by
        intro he
        have hlt := hj (k, a) hm
        rw [Std.LawfulEqCmp.eq_of_compare he] at hlt
        simp at hlt
      rw [findEntry, if_neg hne]
      exact ih hrest hm

theorem mem_of_findEntry_eq_some [Std.LawfulEqOrd κ] {entries : List (κ × α)} {k : κ} {a : α}
    (h : findEntry k entries = some a) : (k, a) ∈ entries := by
  induction entries with
  | nil => simp [findEntry] at h
  | cons e rest ih =>
    obtain ⟨j, b⟩ := e
    rw [findEntry] at h
    split at h
    · next he =>
      obtain rfl := Std.LawfulEqCmp.eq_of_compare he
      cases h
      exact List.mem_cons_self
    · exact List.mem_cons_of_mem _ (ih h)

end Entries

namespace Dict

variable {κ : Type u} {α : Type v} [Ord κ] [Std.LawfulEqOrd κ]

theorem mem_toList {d : Dict κ α} {k : κ} {a : α} : (k, a) ∈ d.toList ↔ d.find? k = some a :=
  ⟨findEntry_eq_some_of_mem d.sorted, mem_of_findEntry_eq_some⟩

theorem nodup_keys (d : Dict κ α) : d.keys.Nodup := by
  refine List.pairwise_map.2 (d.sorted.imp ?_)
  intro a b h he
  simp [he] at h

theorem nodup_toList (d : Dict κ α) : d.toList.Nodup := List.Nodup.of_map _ d.nodup_keys

theorem mem_keys {d : Dict κ α} {k : κ} : k ∈ d.keys ↔ ∃ a, d.find? k = some a := by
  simp only [keys, List.mem_map, Prod.exists, mem_toList, exists_and_right, exists_eq_right]

omit [Std.LawfulEqOrd κ] in
theorem contains_iff {d : Dict κ α} {k : κ} : d.contains k = true ↔ ∃ a, d.find? k = some a := by
  rw [contains, Option.isSome_iff_exists]

theorem find?_insert_eq_ite [Std.TransOrd κ] [DecidableEq κ] (d : Dict κ α) (k k' : κ) (a : α) :
    (d.insert k a).find? k' = if k' = k then some a else d.find? k' := by
  by_cases h : k' = k
  · rw [if_pos h, h, find?_insert_self]
  · rw [if_neg h, find?_insert_of_ne d h]

theorem find?_erase_eq_ite [DecidableEq κ] (d : Dict κ α) (k k' : κ) :
    (d.erase k).find? k' = if k' = k then none else d.find? k' := by
  by_cases h : k' = k
  · rw [if_pos h, h, find?_erase_self]
  · rw [if_neg h, find?_erase_of_ne d h]

theorem find?_modify [Std.TransOrd κ] [DecidableEq κ] (d : Dict κ α) (k k' : κ) (f : α → α) :
    (d.modify k f).find? k' = if k' = k then (d.find? k).map f else d.find? k' := by
  rw [modify]
  split
  · next a h => rw [find?_insert_eq_ite, h, Option.map_some]
  · next h =>
    by_cases he : k' = k
    · rw [if_pos he, he, h, Option.map_none]
    · rw [if_neg he]

omit [Std.LawfulEqOrd κ] in
theorem find?_map {β : Type v} (f : α → β) (d : Dict κ α) (k : κ) :
    (d.map f).find? k = (d.find? k).map f := by
  obtain ⟨entries, hsorted⟩ := d
  simp only [find?, map]
  clear hsorted
  induction entries with
  | nil => rfl
  | cons e rest ih =>
    simp only [List.map_cons, findEntry]
    split
    · rfl
    · exact ih

omit [Std.LawfulEqOrd κ] in
theorem keys_map {β : Type v} (f : α → β) (d : Dict κ α) : (d.map f).keys = d.keys := by
  rw [keys, map, keys, List.map_map]
  rfl

omit [Std.LawfulEqOrd κ] in
theorem values_map {β : Type v} (f : α → β) (d : Dict κ α) :
    (d.map f).values = d.values.map f := by
  rw [values, map, values, List.map_map, List.map_map]
  rfl

theorem find?_filter (keep : κ → α → Bool) (d : Dict κ α) (k : κ) :
    (d.filter keep).find? k = (d.find? k).filter (keep k) := by
  obtain ⟨entries, hsorted⟩ := d
  simp only [find?, filter]
  induction entries with
  | nil => rfl
  | cons e rest ih =>
    obtain ⟨hlt, hrest⟩ := List.pairwise_cons.1 hsorted
    rw [List.filter_cons, findEntry]
    by_cases hk : compare k e.1 = .eq
    · obtain rfl := Std.LawfulEqCmp.eq_of_compare hk
      have hnone : findEntry e.1 (rest.filter fun e => keep e.1 e.2) = none :=
        findEntry_eq_none_of_lt fun f hf => hlt f (List.mem_of_mem_filter hf)
      cases hkeep : keep e.1 e.2 with
      | true => simp [findEntry, Option.filter, hkeep]
      | false => simp [hnone, Option.filter, hkeep]
    · rw [if_neg hk, ← ih hrest]
      split
      · rw [findEntry, if_neg hk]
      · rfl

theorem perm_insert [Std.TransOrd κ] [DecidableEq κ] {d : Dict κ α} {k : κ}
    (h : d.find? k = none) (a : α) : (d.insert k a).toList.Perm ((k, a) :: d.toList) := by
  apply (List.perm_ext_iff_of_nodup (d.insert k a).nodup_toList _).2
  · rintro ⟨k', a'⟩
    rw [mem_toList, find?_insert_eq_ite, List.mem_cons, mem_toList, Prod.mk.injEq]
    by_cases hk : k' = k
    · subst hk
      simp [h, eq_comm]
    · simp [hk]
  · apply List.nodup_cons.2 ⟨_, d.nodup_toList⟩
    intro hm
    cases h.symm.trans (mem_toList.1 hm)

theorem perm_erase [DecidableEq κ] {d : Dict κ α} {k : κ} {a : α} (h : d.find? k = some a) :
    d.toList.Perm ((k, a) :: (d.erase k).toList) := by
  apply (List.perm_ext_iff_of_nodup d.nodup_toList _).2
  · rintro ⟨k', a'⟩
    rw [List.mem_cons, mem_toList, mem_toList, find?_erase_eq_ite, Prod.mk.injEq]
    by_cases hk : k' = k
    · subst hk
      simp [h, eq_comm]
    · simp [hk]
  · apply List.nodup_cons.2 ⟨_, (d.erase k).nodup_toList⟩
    intro hm
    cases (find?_erase_self d k).symm.trans (mem_toList.1 hm)

theorem size_insert_of_none [Std.TransOrd κ] [DecidableEq κ] {d : Dict κ α} {k : κ}
    (h : d.find? k = none) (a : α) : (d.insert k a).size = d.size + 1 :=
  (perm_insert h a).length_eq

theorem size_erase [DecidableEq κ] {d : Dict κ α} {k : κ} {a : α} (h : d.find? k = some a) :
    (d.erase k).size + 1 = d.size :=
  (perm_erase h).length_eq.symm

theorem size_insert_of_some [Std.TransOrd κ] [DecidableEq κ] {d : Dict κ α} {k : κ} {old : α}
    (h : d.find? k = some old) (a : α) : (d.insert k a).size = d.size := by
  have herase : (d.insert k a).erase k = d.erase k := by
    apply ext_find?
    intro j
    simp only [find?_erase_eq_ite, find?_insert_eq_ite]
    split <;> rfl
  rw [← size_erase h, ← size_erase (find?_insert_self d k a), herase]

theorem map_insert [Std.TransOrd κ] [DecidableEq κ] {β : Type v} (f : α → β) (d : Dict κ α) (k : κ)
    (a : α) : (d.insert k a).map f = (d.map f).insert k (f a) := by
  apply ext_find?
  intro j
  simp only [find?_map, find?_insert_eq_ite]
  split <;> rfl

theorem map_erase [Std.TransOrd κ] [DecidableEq κ] {β : Type v} (f : α → β) (d : Dict κ α)
    (k : κ) : (d.erase k).map f = (d.map f).erase k := by
  apply ext_find?
  intro j
  simp only [find?_map, find?_erase_eq_ite]
  split <;> rfl

theorem find?_foldl_insert [Std.TransOrd κ] {entries : List (κ × α)} (h : KeySorted entries)
    (d : Dict κ α) (k : κ) :
    (entries.foldl (fun d e => d.insert e.1 e.2) d).find? k
      = (findEntry k entries).or (d.find? k) := by
  induction entries generalizing d with
  | nil => rfl
  | cons e rest ih =>
    obtain ⟨hlt, hrest⟩ := List.pairwise_cons.1 h
    rw [List.foldl_cons, ih hrest, find?_insert, findEntry]
    by_cases hk : compare k e.1 = .eq
    · obtain rfl := Std.LawfulEqCmp.eq_of_compare hk
      rw [if_pos hk, if_pos hk, findEntry_eq_none_of_lt hlt]
      rfl
    · rw [if_neg hk, if_neg hk]

theorem sum_values (d : Dict κ α) (f : α → Nat) {keys : List κ} (hnodup : keys.Nodup)
    (hkeys : ∀ k ∈ d.keys, k ∈ keys) :
    (d.values.map f).sum = (keys.map fun k => ((d.find? k).map f).getD 0).sum := by
  have hvalues : d.values.map f = d.keys.map fun k => ((d.find? k).map f).getD 0 := by
    rw [values, Dict.keys, List.map_map, List.map_map]
    refine List.map_congr_left fun e he => ?_
    rw [Function.comp_apply, Function.comp_apply, mem_toList.1 he, Option.map_some,
      Option.getD_some]
  have hperm : (keys.filter d.contains).Perm d.keys := by
    rw [List.perm_ext_iff_of_nodup (hnodup.filter _) d.nodup_keys]
    intro k
    rw [List.mem_filter, contains_iff, ← mem_keys]
    exact and_iff_right_of_imp (hkeys k)
  rw [hvalues, ← (hperm.map _).sum_nat]
  clear hvalues hperm hnodup hkeys
  induction keys with
  | nil => rfl
  | cons k rest ih =>
    cases hk : d.find? k with
    | some a =>
      have hc : d.contains k = true := contains_iff.2 ⟨a, hk⟩
      rw [List.filter_cons_of_pos hc, List.map_cons, List.map_cons, List.sum_cons, List.sum_cons,
        ih]
    | none =>
      have hc : ¬ d.contains k = true := by simp [contains, hk]
      rw [List.filter_cons_of_neg hc, List.map_cons, List.sum_cons, hk, ih]
      exact (Nat.zero_add _).symm

theorem ofList_toList [Std.TransOrd κ] (d : Dict κ α) : Dict.ofList d.toList = d := by
  apply ext_find?
  intro k
  rw [ofList, find?_foldl_insert d.sorted, find?_empty, Option.or_none]
  rfl

theorem toList_ofList [Std.TransOrd κ] {entries : List (κ × α)} (h : KeySorted entries) :
    (Dict.ofList entries).toList = entries :=
  congrArg Dict.toList (ofList_toList ⟨entries, h⟩)

end Dict

end ReactivePage
