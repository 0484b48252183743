import ReactivePage.Watch.Change

/-!
Queues of signals between watches and a scheduler.

A channel has a flag beside its queue: the flag is raised before a signal is queued and lowered
before the queue is emptied, so a send that begins while the queue is being emptied leaves the flag
up. Sending and draining are each made of those two steps.
-/

namespace ReactivePage

structure Channel where
  due : Bool
  queue : List Signal
  isOpen : Bool

namespace Channel

def empty : Channel := ⟨false, [], true⟩

def mark (c : Channel) : Channel := { c with due := true }

def enqueue (c : Channel) (s : Signal) : Channel :=
  if c.isOpen then { c with queue := c.queue ++ [s] } else c

def unmark (c : Channel) : Channel := { c with due := false }

def takeAll (c : Channel) : List Signal × Channel := (c.queue, { c with queue := [] })

def send (c : Channel) (s : Signal) : Channel := c.mark.enqueue s

def drain (c : Channel) : List Signal × Channel := c.unmark.takeAll

/-- Takes the oldest signal and leaves the flag. -/
def receive (c : Channel) : Option Signal × Channel :=
  match c.queue with
  | [] => (none, c)
  | s :: rest => (some s, { c with queue := rest })

def close (c : Channel) : Channel := { c with queue := [], isOpen := false }

end Channel

end ReactivePage
