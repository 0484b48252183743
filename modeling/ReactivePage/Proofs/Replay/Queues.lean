import ReactivePage.Proofs.DictLaws
import ReactivePage.Replay.Cache

namespace ReactivePage

namespace Cache

def recordsOf (c : Cache) (identity : String) : List Record :=
  (c.queues.find? identity).getD []

theorem recordsOf_of_find? {c : Cache} {identity : String} {records : List Record}
    (h : c.queues.find? identity = some records) : c.recordsOf identity = records := by
  rw [recordsOf, h, Option.getD_some]

theorem recordsOf_eq_nil {c : Cache} {identity : String}
    (hmore : ∀ r next rest, c.queues.find? identity ≠ some (r :: next :: rest))
    (hone : ∀ r, c.queues.find? identity ≠ some [r]) : c.recordsOf identity = [] := by
  rw [recordsOf]
  cases h : c.queues.find? identity with
  | none => rfl
  | some records =>
    cases records with
    | nil => rfl
    | cons r rest =>
      cases rest with
      | nil => exact absurd h (hone r)
      | cons next rest => exact absurd h (hmore r next rest)

theorem lookup_fst (c : Cache) (identity : String) :
    (c.lookup identity).1 = (c.recordsOf identity).head? := by
  rw [lookup]
  split
  · next h => rw [recordsOf_of_find? h, List.head?_cons]
  · next h => rw [recordsOf_of_find? h, List.head?_cons]
  · next hmore hone =>
    rw [recordsOf_eq_nil (fun r next rest h => hmore r next rest h) fun r h => hone r h]
    rfl

theorem recordsOf_lookup (c : Cache) (identity other : String) :
    (c.lookup identity).2.recordsOf other
      = if other = identity then (c.recordsOf identity).tail else c.recordsOf other := by
  rw [lookup]
  split
  · next r next rest h =>
    rw [recordsOf_of_find? h, recordsOf, Dict.find?_insert_eq_ite]
    split <;> rfl
  · next r h =>
    rw [recordsOf_of_find? h, recordsOf, Dict.find?_erase_eq_ite]
    split <;> rfl
  · next hmore hone =>
    split
    · next heq =>
      subst heq
      rw [recordsOf_eq_nil (fun r next rest h => hmore r next rest h) fun r h => hone r h]
      rfl
    · rfl

theorem recordsOf_ofSnapshot (s : Snapshot) (identity : String) :
    (ofSnapshot s).recordsOf identity = (s.find? identity).getD [] := by
  rw [recordsOf, ofSnapshot, Dict.find?_filter]
  cases s.find? identity with
  | none => rfl
  | some records => cases records <;> rfl

theorem remaining_eq (c : Cache) (identity : String) :
    c.remaining identity = (c.recordsOf identity).length := by
  rw [remaining, recordsOf]
  cases c.queues.find? identity <;> rfl

theorem remaining_lookup (c : Cache) (identity : String) :
    (c.lookup identity).2.remaining identity + (c.lookup identity).1.isSome.toNat
      = c.remaining identity := by
  rw [remaining_eq, remaining_eq, recordsOf_lookup, if_pos rfl, lookup_fst]
  cases c.recordsOf identity <;> rfl

theorem mem_keys_of_lookup {c : Cache} {identity other : String}
    (h : other ∈ (c.lookup identity).2.queues.keys) : other ∈ c.queues.keys := by
  rw [Dict.mem_keys] at h ⊢
  rw [lookup] at h
  split at h
  · next r next rest hfind =>
    rw [Dict.find?_insert_eq_ite] at h
    split at h
    · next heq => exact ⟨_, heq ▸ hfind⟩
    · exact h
  · rw [Dict.find?_erase_eq_ite] at h
    split at h
    · obtain ⟨records, hrecords⟩ := h
      cases hrecords
    · exact h
  · exact h

theorem total_eq_sum (c : Cache) {identities : List String} (hnodup : identities.Nodup)
    (hkeys : ∀ identity ∈ c.queues.keys, identity ∈ identities) :
    c.total = (identities.map c.remaining).sum := by
  rw [total, List.length_flatten]
  exact c.queues.sum_values List.length hnodup hkeys

theorem total_lookup (c : Cache) (identity : String) :
    (c.lookup identity).2.total + (c.lookup identity).1.isSome.toNat = c.total := by
  have hnodup := c.queues.nodup_keys
  rw [total_eq_sum c hnodup fun _ h => h,
    total_eq_sum (c.lookup identity).2 hnodup fun _ => mem_keys_of_lookup]
  have hothers : ∀ other, other ≠ identity →
      (c.lookup identity).2.remaining other = c.remaining other := by
    intro other hne
    rw [remaining_eq, remaining_eq, recordsOf_lookup, if_neg hne]
  by_cases hm : identity ∈ c.queues.keys
  · have hsplit : ∀ f : String → Nat, (c.queues.keys.map f).sum
        = f identity + ((c.queues.keys.erase identity).map f).sum :=
      fun f => ((List.perm_cons_erase hm).map f).sum_nat
    have hrest : (c.queues.keys.erase identity).map (c.lookup identity).2.remaining
        = (c.queues.keys.erase identity).map c.remaining :=
      List.map_congr_left fun other ho => hothers other (hnodup.mem_erase_iff.1 ho).1
    rw [hsplit, hsplit, hrest, ← remaining_lookup c identity]
    omega
  · have hnone : c.recordsOf identity = [] := by
      rw [recordsOf]
      cases hfind : c.queues.find? identity with
      | none => rfl
      | some records => exact absurd (Dict.mem_keys.2 ⟨records, hfind⟩) hm
    rw [lookup_fst, hnone]
    refine congrArg List.sum (List.map_congr_left fun other ho => hothers other ?_)
    rintro rfl
    exact hm ho

theorem isEmpty_iff (c : Cache) : c.isEmpty = true ↔ c.total = 0 := by
  -- No queue is empty, so a cache without records has no queue.
  rw [isEmpty, Dict.isEmpty, total, List.isEmpty_iff]
  constructor
  · intro h
    rw [Dict.values, h]
    rfl
  · intro h
    rw [List.length_eq_zero_iff, List.flatten_eq_nil_iff] at h
    refine List.eq_nil_iff_forall_not_mem.2 fun e he => ?_
    exact c.nonempty e he (h e.2 (List.mem_map_of_mem he))

end Cache

end ReactivePage
