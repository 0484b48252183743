import ReactivePage.Watch.Store

/-!
Writes and the reports they cause.

A write notifies the observers of its container. An observer along a path looks the path up
again: its links move onto the containers that the path now goes through, and it reports when the
path leads to another value or when its last slot was written. An observer of a collection reports
every change of it; when the path to a collection comes to lead elsewhere, the observer moves to
the new collection before the replacement is reported.
-/

namespace ReactivePage

namespace Store

def report (s : Store) (o : Observation) (change : Change) : Store :=
  (s.send o.channel (.change ⟨o.watch, o.label, change⟩)).2

def accepts (s : Store) (c : Handle) (step : Step) : Bool :=
  s.heap.isKeyed c || step.position?.isSome

def linkAll (s : Store) (id : ObservationId) : Nat → List Handle → List Step →
    List Subscription × Store
  | i, c :: chain, step :: steps =>
    if s.accepts c step then
      let (sub, s) := s.subscribe c (.link id i)
      let (subs, s) := s.linkAll id (i + 1) chain steps
      (sub :: subs, s)
    else s.linkAll id (i + 1) chain steps
  | _, _, _ => ([], s)

def unsubscribeAll (s : Store) (subs : List Subscription) : Store := subs.foldl unsubscribe s

def setObservation (s : Store) (id : ObservationId) (o : Observation) : Store :=
  { s with observations := s.observations.insert id o }

def relink (s : Store) (id : ObservationId) (p : PathWatch) : PathWatch × Store :=
  let chain := s.heap.chain p.root p.path
  if chain = p.chain ∧ p.links ≠ [] then (p, s)
  else
    let s := s.unsubscribeAll p.links
    let (links, s) := s.linkAll id 0 chain p.path.steps
    ({ p with links, chain }, s)

def subscribeContent (s : Store) (id : ObservationId) (kind : Kind) (v : Option Value) :
    Option Subscription × Store :=
  match v with
  | some (.ref c) =>
    if kind ≠ .scalar ∧ s.heap.kind (.ref c) = kind then
      let (sub, s) := s.subscribe c (.content id)
      (some sub, s)
    else (none, s)
  | _ => (none, s)

def handleOf? (s : Store) (kind : Kind) (v : Option Value) : Option Handle :=
  match v with
  | some (.ref c) => if s.heap.kind (.ref c) = kind then some c else none
  | _ => none

def reportValue (s : Store) (o : Observation) (old new : Option Value) : Store :=
  s.report o (.value (s.heap.snapshot old) (s.heap.snapshot new))

/-- Follows a path to a collection. The observer moves when the path leads to another one; a
write of the same collection to its slot is no replacement. -/
def followCollection (s : Store) (id : ObservationId) (o : Observation) (old new : Option Value) :
    Store :=
  let target := s.handleOf? o.kind new
  let current := o.content.map (·.container)
  if target.isSome ∧ target = current then s
  else
    let s :=
      if target = current then s
      else
        let (fresh, s) := s.subscribeContent id o.kind new
        let s := s.unsubscribeAll o.content.toList
        s.setObservation id { o with content := fresh }
    if Value.sameOption old new then s
    else s.report o (.replaced (s.heap.snapshot old) (s.heap.snapshot new))

/-- Looks a path up again. `direct` tells that its last slot was written. -/
def refresh (s : Store) (id : ObservationId) (direct : Bool) : Store :=
  match s.observations.find? id with
  | none => s
  | some o =>
    match o.holder with
    | none => s
    | some p =>
      let (p, s) := s.relink id p
      let new := s.heap.lookup? p.root p.path
      if direct ∨ ¬ Value.sameOption p.last new then
        let o := { o with holder := some { p with last := new } }
        let s := s.setObservation id o
        match o.kind with
        | .scalar => s.reportValue o p.last new
        | _ => s.followCollection id o p.last new
      else s.setObservation id { o with holder := some p }

def deliverLink (s : Store) (id : ObservationId) (step : Step) (isLeaf : Bool) (e : Event) :
    Store :=
  match e with
  | .entry key _ _ => if key = step.asKey then s.refresh id isLeaf else s
  | .splice index removed added =>
    match step.position? with
    | some p =>
      if index ≤ p then s.refresh id (isLeaf && index = p && removed.length = added) else s
    | none => s

def deliverContent (s : Store) (o : Observation) (e : Event) : Store :=
  match e with
  | .entry key old new => s.report o (.key key (s.heap.snapshot old) (s.heap.snapshot new))
  | .splice index removed added => s.report o (.splice index (removed.map s.heap.toJson) added)

def deliver (e : Event) (observer : Observer) (s : Store) : Store :=
  match observer with
  | .link id i =>
    match (s.observations.find? id).bind (·.holder) with
    | some p =>
      match p.path.steps[i]? with
      | some step => s.deliverLink id step (i + 1 = p.path.steps.length) e
      | none => s
    | none => s
  | .content id =>
    match s.observations.find? id with
    | some o => s.deliverContent o e
    | none => s

def notify (s : Store) (c : Handle) (e : Event) : Store :=
  ObserverList.notify (·.observersOf c) (deliver e) s

def write (s : Store) (w : Write) : Store :=
  let (heap, event) := s.heap.write w
  let s := { s with heap }
  match event with
  | some e => s.notify w.target e
  | none => s

end Store

end ReactivePage
