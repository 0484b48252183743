import ReactivePage.Watch.Dispatch

namespace ReactivePage

inductive Action (α : Type)
  | done (result : α)
  | read (next : Heap → Action α)
  | create (contents : Contents) (next : Handle → Action α)
  | load (json : Json) (next : Value → Action α)
  | write (w : Write) (next : Action α)
  | wake (channel : ChannelId) (next : Bool → Action α)
  | render (label : String) (value : Json) (next : Action α)

namespace Action

variable {α β : Type}

protected def bind (a : Action α) (f : α → Action β) : Action β :=
  match a with
  | done result => f result
  | read next => read fun h => (next h).bind f
  | create contents next => create contents fun c => (next c).bind f
  | load json next => load json fun v => (next v).bind f
  | write w next => write w (next.bind f)
  | wake channel next => wake channel fun b => (next b).bind f
  | render label value next => render label value (next.bind f)

instance : Monad Action where
  pure := done
  bind := Action.bind

def run : Action α → Store → α × Store
  | done result, s => (result, s)
  | read next, s => (next s.heap).run s
  | create contents next, s =>
    let (c, heap) := s.heap.create contents
    (next c).run { s with heap }
  | load json next, s =>
    let (v, heap) := s.heap.ofJson json
    (next v).run { s with heap }
  | write w next, s => next.run (s.write w)
  | wake channel next, s =>
    let (delivered, s) := s.send channel .wake
    (next delivered).run s
  | render label value next, s => next.run { s with rendered := s.rendered ++ [(label, value)] }

def model : Action Heap := read done

def perform (w : Write) : Action Unit := write w (done ())

def performWith (w : Heap → Write) : Action Unit := read fun h => write (w h) (done ())

end Action

end ReactivePage
