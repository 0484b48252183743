import ReactivePage.Replay.Record
import ReactivePage.Replay.ScriptBlock

namespace ReactivePage

/-- Queues of records by identity, none of them empty. -/
structure Cache where
  queues : Dict String (List Record)
  nonempty : ∀ e ∈ queues.toList, e.2 ≠ []

inductive SnapshotError
  | malformed
  | scriptType (length : Nat)
  deriving DecidableEq

namespace Cache

def empty : Cache := ⟨∅, fun _ h => nomatch h⟩

def ofSnapshot (s : Snapshot) : Cache where
  queues := s.filter fun _ records => !records.isEmpty
  nonempty := fun e h => by
    have := (List.mem_filter.1 h).2
    simpa using this

def ofText (text : String) : Except SnapshotError Cache :=
  if Text.isBlank text then .ok empty
  else match Snapshot.parse? text with
    | some s => .ok (ofSnapshot s)
    | none => .error .malformed

def ofFound (scriptType : String) : Option (Option String) → Except SnapshotError Cache
  | none => .error (.scriptType scriptType.utf8ByteSize)
  | some none => .ok empty
  | some (some text) => ofText text

def ofPage (scriptType page : String) : Except SnapshotError Cache :=
  ofFound scriptType (ScriptBlock.find? scriptType page)

def lookup (c : Cache) (identity : String) : Option Record × Cache :=
  match _h : c.queues.find? identity with
  | some (r :: next :: rest) =>
    (some r, {
      queues := c.queues.insert identity (next :: rest)
      nonempty := fun e h => by
        rcases mem_putEntry h with rfl | h
        · simp
        · exact c.nonempty e h })
  | some [r] =>
    (some r, {
      queues := c.queues.erase identity
      nonempty := fun e h => c.nonempty e (List.mem_filter.1 h).1 })
  | _ => (none, c)

def remaining (c : Cache) (identity : String) : Nat :=
  ((c.queues.find? identity).map List.length).getD 0

def total (c : Cache) : Nat := c.queues.values.flatten.length

def isEmpty (c : Cache) : Bool := c.queues.isEmpty

end Cache

end ReactivePage
