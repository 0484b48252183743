import ReactivePage.Proofs.Replay.Encoding
import ReactivePage.Proofs.Replay.Queues

namespace ReactivePage

def Snapshot.recordsOf (s : Snapshot) (identity : String) : List Record :=
  (s.find? identity).getD []

namespace Cache

def lookups (c : Cache) : List String → List (Option Record) × Cache
  | [] => ([], c)
  | identity :: rest =>
    let (found, c) := c.lookup identity
    let (more, c) := c.lookups rest
    (found :: more, c)

def hits (made : List String) (found : List (Option Record)) (identity : String) : Nat :=
  (made.zip found).countP fun e => e.1 = identity && e.2.isSome

theorem lookups_cons (c : Cache) (identity : String) (rest : List String) :
    c.lookups (identity :: rest) = ((c.lookup identity).1 :: ((c.lookup identity).2.lookups rest).1,
      ((c.lookup identity).2.lookups rest).2) :=
  rfl

theorem length_lookups (c : Cache) (made : List String) :
    (c.lookups made).1.length = made.length := by
  induction made generalizing c with
  | nil => rfl
  | cons identity rest ih => exact congrArg Nat.succ (ih _)

theorem getElem?_lookups (c : Cache) {made : List String} {i : Nat} {identity : String}
    (h : made[i]? = some identity) :
    (c.lookups made).1[i]?
      = some (c.recordsOf identity)[(made.take i).count identity]? := by
  induction made generalizing c i with
  | nil => cases h
  | cons other rest ih =>
    rw [lookups_cons]
    cases i with
    | zero =>
      cases h
      rw [List.getElem?_cons_zero, lookup_fst, List.head?_eq_getElem?]
      rfl
    | succ i =>
      rw [List.getElem?_cons_succ, ih _ h, recordsOf_lookup, List.take_succ_cons, List.count_cons]
      by_cases heq : identity = other
      · subst heq
        rw [if_pos rfl, List.getElem?_tail, if_pos (beq_self_eq_true identity)]
      · rw [if_neg heq, if_neg (by simpa using Ne.symm heq), Nat.add_zero]

theorem remaining_lookups (c : Cache) (made : List String) (identity : String) :
    (c.lookups made).2.remaining identity + hits made (c.lookups made).1 identity
      = c.remaining identity := by
  induction made generalizing c with
  | nil => rfl
  | cons other rest ih =>
    have hrest := ih (c.lookup other).2
    have hhits : hits (other :: rest) (c.lookups (other :: rest)).1 identity
        = hits rest ((c.lookup other).2.lookups rest).1 identity
          + (other = identity && (c.lookup other).1.isSome).toNat := by
      rw [hits, lookups_cons, List.zip_cons_cons, List.countP_cons, hits]
      cases (other = identity && (c.lookup other).1.isSome : Bool) <;> rfl
    rw [hhits, lookups_cons]
    by_cases heq : other = identity
    · subst heq
      have hhit := remaining_lookup c other
      simp only [decide_true, Bool.true_and]
      omega
    · have hother : (c.lookup other).2.remaining identity = c.remaining identity := by
        rw [remaining_eq, remaining_eq, recordsOf_lookup, if_neg (Ne.symm heq)]
      simp only [heq, decide_false, Bool.false_and, Bool.toNat_false]
      omega

theorem mem_keys_of_lookups {c : Cache} {made : List String} {identity : String}
    (h : identity ∈ (c.lookups made).2.queues.keys) : identity ∈ c.queues.keys := by
  induction made generalizing c with
  | nil => exact h
  | cons other rest ih => exact mem_keys_of_lookup (ih h)

/-- What holds of a cache that a snapshot was loaded into, once lookups were made of it that found
the records `found`. -/
structure Serves (s : Snapshot) (made : List String) (found : List (Option Record)) (c : Cache) :
    Prop where
  length : found.length = made.length
  inOrder : ∀ i identity, made[i]? = some identity →
    found[i]? = some (s.recordsOf identity)[(made.take i).count identity]?
  remaining : ∀ identity,
    c.remaining identity + hits made found identity = (s.recordsOf identity).length
  others : ∀ identity other, other ≠ identity →
    (c.lookup identity).2.remaining other = c.remaining other ∧
      (c.lookup identity).2.recordsOf other = c.recordsOf other
  total : c.total = (s.keys.map c.remaining).sum
  falls : ∀ identity, (c.lookup identity).2.total + (c.lookup identity).1.isSome.toNat = c.total
  isEmpty : c.isEmpty = true ↔ c.total = 0

theorem serves (s : Snapshot) (made : List String) :
    Serves s made ((ofSnapshot s).lookups made).1 ((ofSnapshot s).lookups made).2 where
  length := length_lookups _ made
  inOrder := by
    intro i identity h
    rw [getElem?_lookups _ h, recordsOf_ofSnapshot]
    rfl
  remaining := by
    intro identity
    rw [remaining_lookups, remaining_eq, recordsOf_ofSnapshot]
    rfl
  others := by
    intro identity other hne
    rw [remaining_eq, remaining_eq, recordsOf_lookup, if_neg hne]
    exact ⟨rfl, rfl⟩
  total := by
    refine total_eq_sum _ s.nodup_keys fun identity h => ?_
    obtain ⟨e, he, rfl⟩ := List.mem_map.1 (mem_keys_of_lookups h)
    exact List.mem_map_of_mem (List.mem_filter.1 he).1
  falls := total_lookup _
  isEmpty := isEmpty_iff _

/-- A cache serves each record once, first in first out, whether it was made of a snapshot or of
the text of one. -/
theorem serves_snapshot (s : Snapshot) :
    (∀ made : List String,
      Serves s made ((ofSnapshot s).lookups made).1 ((ofSnapshot s).lookups made).2) ∧
    (s.Fits → ofText s.render = .ok (ofSnapshot s)) :=
  ⟨serves s, ofText_render⟩

def mixed : Snapshot :=
  Dict.ofList [
    ("GET /a -", [⟨some ⟨200, ∅, "a"⟩, none⟩, ⟨none, some "reset"⟩]),
    ("GET /b -", []),
    ("GET /c -", [⟨some ⟨304, ∅, ""⟩, some "late"⟩, ⟨none, none⟩])]

theorem fits_mixed : mixed.Fits := by
  change ∀ e ∈ mixed.toList, ∀ r ∈ e.2, ∀ response ∈ r.response, response.status < 65536
  decide +kernel

theorem serves_snapshot_mixed :
    let made := ["GET /c -", "GET /a -", "GET /c -", "GET /b -", "GET /c -", "GET /d -"]
    ∃ c, ofText mixed.render = .ok c ∧
      (c.lookups made).1 = [some ⟨some ⟨304, ∅, ""⟩, some "late"⟩, some ⟨some ⟨200, ∅, "a"⟩, none⟩,
        some ⟨none, none⟩, none, none, none] ∧
      (c.lookups made).2.remaining "GET /a -" + 1 = 2 ∧
      (c.lookups (made ++ ["GET /a -"])).2.isEmpty = true := by
  intro made
  obtain ⟨hserves, htext⟩ := serves_snapshot mixed
  have hfound : ((ofSnapshot mixed).lookups made).1 = [some ⟨some ⟨304, ∅, ""⟩, some "late"⟩,
      some ⟨some ⟨200, ∅, "a"⟩, none⟩, some ⟨none, none⟩, none, none, none] := by
    decide +kernel
  have hremaining := (hserves made).remaining "GET /a -"
  rw [hfound] at hremaining
  have hempty := (hserves (made ++ ["GET /a -"])).isEmpty.2 (by decide +kernel)
  exact ⟨ofSnapshot mixed, htext fits_mixed, hfound, hremaining, hempty⟩

end Cache

end ReactivePage
