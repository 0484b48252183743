import ReactivePage.Watch.Dispatch

namespace ReactivePage

inductive Target
  | field (owner : Handle) (path : String)
  | collection (handle : Handle)
  deriving DecidableEq

inductive TargetKey
  | field (owner : Handle) (path : Path)
  | collection (handle : Handle)
  deriving DecidableEq

def handleLabel (c : Handle) : String := "#" ++ String.ofList (Digits.write c)

def watchLabel (id : WatchId) : String := "w" ++ String.ofList (Digits.write id)

namespace Target

def key : Target → Except InvalidPath TargetKey
  | field owner path => (TargetKey.field owner ·) <$> Path.read path
  | collection c => .ok (.collection c)

def label : Target → String
  | field _ path => Text.trim path
  | collection c => handleLabel c

end Target

namespace Store

/-- Sets up an observation under a number that it may have had before. -/
def observeKey (s : Store) (k : ChannelId) (watch : WatchId) : TargetKey → ObservationId × Store
  | .field owner path =>
    let current := s.heap.lookup? owner path
    let kind := (current.map s.heap.kind).getD .scalar
    let id := s.nextObservation
    let s := { s with nextObservation := id + 1 }
    let (content, s) := s.subscribeContent id kind current
    let (links, s) := s.linkAll id 0 (s.heap.chain owner path) path.steps
    let holder : PathWatch := ⟨owner, path, links, s.heap.chain owner path, current⟩
    (id, s.setObservation id ⟨k, watch, path.display, kind, some holder, content⟩)
  | .collection c =>
    let kind := s.heap.kind (.ref c)
    let id := s.nextObservation
    let s := { s with nextObservation := id + 1 }
    let (content, s) := s.subscribeContent id kind (some (.ref c))
    (id, s.setObservation id ⟨k, watch, handleLabel c, kind, none, content⟩)

def closeObservation (s : Store) (id : ObservationId) : Store :=
  match s.observations.find? id with
  | none => s
  | some o =>
    let s := s.unsubscribeAll ((o.holder.map (·.links)).getD [])
    let s := s.unsubscribeAll o.content.toList
    { s with observations := s.observations.erase id }

end Store

structure RegistryEntry where
  key : TargetKey
  label : String
  observation : ObservationId
  holders : Nat

structure Registry where
  channel : ChannelId
  entries : Dict WatchId RegistryEntry
  index : List (TargetKey × WatchId)
  nextId : WatchId

namespace Registry

def empty (k : ChannelId) : Registry := ⟨k, ∅, [], 1⟩

def size (r : Registry) : Nat := r.entries.size

def isActive (r : Registry) (id : WatchId) : Bool := r.entries.contains id

def ids (r : Registry) : List WatchId := r.entries.keys

def label? (r : Registry) (id : WatchId) : Option String := (r.entries.find? id).map (·.label)

def kind? (r : Registry) (s : Store) (id : WatchId) : Option Kind := do
  let entry ← r.entries.find? id
  return (← s.observations.find? entry.observation).kind

def idOf? (r : Registry) (key : TargetKey) : Option WatchId :=
  (r.index.find? fun e => e.1 = key).map Prod.snd

def entryOf? (r : Registry) (key : TargetKey) : Option (WatchId × RegistryEntry) := do
  let id ← r.idOf? key
  return (id, ← r.entries.find? id)

def insert (r : Registry) (id : WatchId) (entry : RegistryEntry) : Registry :=
  { r with
    entries := r.entries.insert id entry
    index := (entry.key, id) :: r.index.filter (·.1 ≠ entry.key) }

def erase (r : Registry) (id : WatchId) (key : TargetKey) : Registry :=
  { r with entries := r.entries.erase id, index := r.index.filter (·.1 ≠ key) }

def watchKey (r : Registry) (s : Store) (key : TargetKey) (label : String) :
    WatchId × Registry × Store :=
  match r.entryOf? key with
  | some (id, entry) =>
    let s := s.closeObservation entry.observation
    let (observation, s) := s.observeKey r.channel id key
    let entry := { entry with observation, holders := entry.holders + 1 }
    (id, { r with entries := r.entries.insert id entry }, s)
  | none =>
    let (observation, s) := s.observeKey r.channel r.nextId key
    let entry : RegistryEntry := ⟨key, label, observation, 1⟩
    (r.nextId, { r.insert r.nextId entry with nextId := r.nextId + 1 }, s)

def watch (r : Registry) (s : Store) (target : Target) :
    Except InvalidPath (WatchId × Registry × Store) := do
  let key ← target.key
  return r.watchKey s key target.label

def unwatch (r : Registry) (s : Store) (id : WatchId) : Bool × Registry × Store :=
  match r.entries.find? id with
  | none => (false, r, s)
  | some entry =>
    (true, r.erase id entry.key, s.closeObservation entry.observation)

def release (r : Registry) (s : Store) (id : WatchId) : Bool × Registry × Store :=
  match r.entries.find? id with
  | none => (false, r, s)
  | some entry =>
    if 1 < entry.holders then
      (false, { r with entries := r.entries.insert id { entry with holders := entry.holders - 1 } },
        s)
    else r.unwatch s id

def releaseAll (r : Registry) (s : Store) : List WatchId → Registry × Store
  | [] => (r, s)
  | id :: rest =>
    let (_, r, s) := r.release s id
    r.releaseAll s rest

def unwatchAll (r : Registry) (s : Store) : List WatchId → Registry × Store
  | [] => (r, s)
  | id :: rest =>
    let (_, r, s) := r.unwatch s id
    r.unwatchAll s rest

def closeAll (r : Registry) (s : Store) : Registry × Store := r.unwatchAll s r.ids

end Registry

end ReactivePage
