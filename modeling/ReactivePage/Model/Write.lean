import ReactivePage.Model.Heap

namespace ReactivePage

inductive Write
  | put (target : Handle) (key : String) (value : Value)
  | erase (target : Handle) (key : String)
  | splice (target : Handle) (index remove : Nat) (insert : List Value)

inductive Event
  | entry (key : String) (old new : Option Value)
  | splice (index : Nat) (removed : List Value) (added : Nat)

def Write.target : Write → Handle
  | put c _ _ => c
  | erase c _ => c
  | splice c _ _ _ => c

/-- Replaces up to `remove` items at `index` by others; the index is at most the length. The list
that results, and the items taken out. -/
def spliceList {α : Type} (items : List α) (index remove : Nat) (insert : List α) :
    List α × List α :=
  let index := min index items.length
  let rest := items.drop index
  (items.take index ++ insert ++ rest.drop remove, rest.take remove)

namespace Heap

def updateEntries (h : Heap) (c : Handle) (f : Dict String Value → Dict String Value) : Heap :=
  match h.contents c with
  | .object fields => h.setContents c (.object (f fields))
  | .map entries => h.setContents c (.map (f entries))
  | .sequence _ => h

def isKeyed (h : Heap) (c : Handle) : Bool :=
  match h.contents c with
  | .sequence _ => false
  | _ => true

/-- Carries out a write. The event is missing when nothing was done: an entry to be removed was
not there, a splice neither removed nor added, or the container is of another kind. -/
def write (h : Heap) : Write → Heap × Option Event
  | .put c key value =>
    if h.isKeyed c then
      (h.updateEntries c (·.insert key value), some (.entry key (h.valueAt? c key) (some value)))
    else (h, none)
  | .erase c key =>
    match h.valueAt? c key with
    | some old => (h.updateEntries c (·.erase key), some (.entry key (some old) none))
    | none => (h, none)
  | .splice c index remove insert =>
    match h.contents c with
    | .sequence items =>
      let (result, removed) := spliceList items index remove insert
      if removed = [] ∧ insert = [] then (h, none)
      else
        (h.setContents c (.sequence result),
          some (.splice (min index items.length) removed insert.length))
    | _ => (h, none)

def length (h : Heap) (c : Handle) : Nat := (h.items c).length

end Heap

namespace Write

def push (h : Heap) (c : Handle) (v : Value) : Write := splice c (h.length c) 0 [v]

def insertAt (c : Handle) (index : Nat) (v : Value) : Write := splice c index 0 [v]

def removeAt (h : Heap) (c : Handle) (index : Nat) : Write :=
  splice c index (if index < h.length c then 1 else 0) []

def pop (h : Heap) (c : Handle) : Write := removeAt h c (h.length c - 1)

def setAt (h : Heap) (c : Handle) (index : Nat) (v : Value) : Write :=
  if index < h.length c then splice c index 1 [v] else splice c index 0 []

def clear (h : Heap) (c : Handle) : Write := splice c 0 (h.length c) []

end Write

end ReactivePage
