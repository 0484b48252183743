import ReactivePage.Json.Basic

namespace ReactivePage

abbrev WatchId := Nat

inductive Change
  /-- A path leads to another value, or its last slot was written. -/
  | value (old new : Option Json)
  | splice (index : Nat) (removed : List Json) (added : Nat)
  | key (key : String) (old new : Option Json)
  /-- The slot that held a watched collection holds something else. -/
  | replaced (old new : Option Json)

namespace Change

/-- The greatest count that takes part in a difference of lengths. -/
def maxCount : Nat := Nat.pow 2 63 - 1

def lengthDelta : Change → Int
  | splice _ removed added => (min added maxCount : Nat) - (min removed.length maxCount : Nat)
  | key _ none (some _) => 1
  | key _ (some _) none => -1
  | _ => 0

def isStructural : Change → Bool
  | replaced _ _ => true
  | c => c.lengthDelta ≠ 0

end Change

structure Notification where
  watch : WatchId
  path : String
  change : Change

inductive Signal
  | change (n : Notification)
  | wake

end ReactivePage
