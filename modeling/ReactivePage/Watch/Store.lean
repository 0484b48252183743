import ReactivePage.Model.Write
import ReactivePage.Watch.Channel
import ReactivePage.Watch.ObserverList

namespace ReactivePage

abbrev ObservationId := Nat

abbrev ChannelId := Nat

inductive Observer
  | link (observation : ObservationId) (position : Nat)
  | content (observation : ObservationId)
  deriving DecidableEq

structure Subscription where
  container : Handle
  id : Nat
  deriving DecidableEq

/-- A path under observation: where it starts, the observers along it and the containers they
observe, and the value it led to when it was last looked at. -/
structure PathWatch where
  root : Handle
  path : Path
  links : List Subscription
  chain : List Handle
  last : Option Value

structure Observation where
  channel : ChannelId
  watch : WatchId
  label : String
  kind : Kind
  holder : Option PathWatch
  content : Option Subscription

structure Store where
  heap : Heap
  observers : Dict Handle (ObserverList Observer)
  observations : Dict ObservationId Observation
  nextObservation : ObservationId
  channels : Dict ChannelId Channel
  nextChannel : ChannelId
  rendered : List (String × Json)

namespace Store

def empty : Store := ⟨Heap.empty, ∅, ∅, 0, ∅, 0, []⟩

def observersOf (s : Store) (c : Handle) : ObserverList Observer :=
  (s.observers.find? c).getD ∅

def observerCount (s : Store) (c : Handle) : Nat := (s.observersOf c).size

def setObservers (s : Store) (c : Handle) (l : ObserverList Observer) : Store :=
  { s with observers := s.observers.insert c l }

def subscribe (s : Store) (c : Handle) (o : Observer) : Subscription × Store :=
  let (id, l) := (s.observersOf c).subscribe o
  (⟨c, id⟩, s.setObservers c l)

def unsubscribe (s : Store) (sub : Subscription) : Store :=
  s.setObservers sub.container ((s.observersOf sub.container).close sub.id)

def openChannel (s : Store) : ChannelId × Store :=
  (s.nextChannel, { s with
    channels := s.channels.insert s.nextChannel Channel.empty
    nextChannel := s.nextChannel + 1 })

def channel (s : Store) (k : ChannelId) : Channel := (s.channels.find? k).getD Channel.empty

def setChannel (s : Store) (k : ChannelId) (c : Channel) : Store :=
  { s with channels := s.channels.insert k c }

def send (s : Store) (k : ChannelId) (signal : Signal) : Bool × Store :=
  ((s.channel k).isOpen, s.setChannel k ((s.channel k).send signal))

def drain (s : Store) (k : ChannelId) : List Signal × Store :=
  let (signals, c) := (s.channel k).drain
  (signals, s.setChannel k c)

def receive (s : Store) (k : ChannelId) : Option Signal × Store :=
  let (signal, c) := (s.channel k).receive
  (signal, s.setChannel k c)

def schedule (s : Store) (k : ChannelId) : Store := s.setChannel k (s.channel k).mark

def isDue (s : Store) (k : ChannelId) : Bool := (s.channel k).due

def closeChannel (s : Store) (k : ChannelId) : Store := s.setChannel k (s.channel k).close

end Store

end ReactivePage
