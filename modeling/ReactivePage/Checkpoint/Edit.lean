import ReactivePage.Checkpoint.Action

namespace ReactivePage.Action

def edit {α : Type} (w : Heap → Write) (before : Heap → α) : Action α :=
  read fun h => write (w h) (done (before h))

def put (c : Handle) (key : String) (v : Value) : Action (Option Value) :=
  edit (fun _ => .put c key v) (·.valueAt? c key)

def erase (c : Handle) (key : String) : Action (Option Value) :=
  edit (fun _ => .erase c key) (·.valueAt? c key)

def splice (c : Handle) (index remove : Nat) (insert : List Value) : Action (List Value) :=
  edit (fun _ => .splice c index remove insert)
    fun h => (spliceList (h.items c) index remove insert).2

def push (c : Handle) (v : Value) : Action Unit := performWith (Write.push · c v)

def insertAt (c : Handle) (index : Nat) (v : Value) : Action Unit :=
  perform (Write.insertAt c index v)

def setAt (c : Handle) (index : Nat) (v : Value) : Action (Option Value) :=
  edit (Write.setAt · c index v) fun h => (h.items c)[index]?

def removeAt (c : Handle) (index : Nat) : Action (Option Value) :=
  edit (Write.removeAt · c index) fun h => (h.items c)[index]?

def pop (c : Handle) : Action (Option Value) :=
  edit (Write.pop · c) fun h => (h.items c).getLast?

def clear (c : Handle) : Action Unit := performWith (Write.clear · c)

end ReactivePage.Action
