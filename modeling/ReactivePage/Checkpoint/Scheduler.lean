import ReactivePage.Checkpoint.Action
import ReactivePage.Checkpoint.Evaluator
import ReactivePage.Config.Settings
import ReactivePage.Template.Descriptor
import ReactivePage.Watch.Registry

/-!
Bindings and checkpoints.

A binding shows the value of a descriptor to a target. Binding watches every path that the value
depends on. A checkpoint takes all signals off the channel and then evaluates each binding that is
new or has a watch among the changed ones, once and in the order of binding; a failure is recorded
and stops nothing. A target may keep a memory between its values. What targets write meanwhile is
left for the next checkpoint.
-/

namespace ReactivePage

abbrev BindingId := Nat

def bindingLabel (id : BindingId) : String := "b" ++ String.ofList (Digits.write id)

/-- What a binding shows its values to. A target keeps a memory from each value to the next. -/
structure BindingTarget (σ : Type) where
  memory : σ
  receive : Json → σ → Action σ

/-- Shows a value: the target with its new memory, and the store after what it did. -/
def BindingTarget.run {σ : Type} (t : BindingTarget σ) (value : Json) (s : Store) :
    BindingTarget σ × Store :=
  let (memory, s) := (t.receive value t.memory).run s
  ({ t with memory }, s)

structure Binding (σ : Type) where
  value : Descriptor
  scope : Handle
  watches : List WatchId
  target : BindingTarget σ
  fresh : Bool

structure Report where
  sequence : Nat
  notifications : Nat
  wakes : Nat
  evaluated : List BindingId
  failures : List (BindingId × EvalError)

def Report.isIdle (r : Report) : Bool :=
  r.notifications = 0 && r.wakes = 0 && r.evaluated.isEmpty && r.failures.isEmpty

structure Scheduler (σ : Type) where
  settings : SchedulerSettings
  channel : ChannelId
  registry : Registry
  evaluator : Evaluator
  bindings : Dict BindingId (Binding σ)
  nextBinding : BindingId
  sequence : Nat

namespace Scheduler

variable {σ : Type}

def create (s : Store) (settings : SchedulerSettings) (evaluator : Evaluator) :
    Scheduler σ × Store :=
  let (k, s) := s.openChannel
  (⟨settings, k, Registry.empty k, evaluator, ∅, 1, 0⟩, s)

def watch (d : Scheduler σ) (s : Store) (target : Target) :
    Except InvalidPath (WatchId × Scheduler σ × Store) := do
  let (id, registry, s) ← d.registry.watch s target
  return (id, { d with registry }, s)

def unwatch (d : Scheduler σ) (s : Store) (id : WatchId) : Bool × Scheduler σ × Store :=
  let (ended, registry, s) := d.registry.unwatch s id
  (ended, { d with registry }, s)

def dependencies (d : Scheduler σ) (value : Descriptor) : List String :=
  value.expressions.flatMap d.evaluator.dependencies

/-- Watches paths in order. At the first that is none, the watches already taken are let go. -/
def watchPaths (r : Registry) (s : Store) (scope : Handle) (taken : List WatchId) :
    List String → Except InvalidPath (List WatchId) × Registry × Store
  | [] => (.ok taken, r, s)
  | path :: rest =>
    match r.watch s (.field scope path) with
    | .ok (id, r, s) => watchPaths r s scope (taken ++ [id]) rest
    | .error e =>
      let (r, s) := r.releaseAll s taken
      (.error e, r, s)

def bind (d : Scheduler σ) (s : Store) (value : Descriptor) (scope : Handle)
    (target : BindingTarget σ) : Except InvalidPath BindingId × Scheduler σ × Store :=
  match watchPaths d.registry s scope [] (d.dependencies value) with
  | (.error e, registry, s) => (.error e, { d with registry }, s)
  | (.ok watches, registry, s) =>
    let binding : Binding σ := ⟨value, scope, watches, target, true⟩
    (.ok d.nextBinding,
      { d with
        registry
        bindings := d.bindings.insert d.nextBinding binding
        nextBinding := d.nextBinding + 1 },
      s.schedule d.channel)

def unbind (d : Scheduler σ) (s : Store) (id : BindingId) : Bool × Scheduler σ × Store :=
  match d.bindings.find? id with
  | none => (false, d, s)
  | some binding =>
    let (registry, s) := d.registry.releaseAll s binding.watches
    (true, { d with registry, bindings := d.bindings.erase id }, s)

def unbindAll (d : Scheduler σ) (s : Store) : List BindingId → Scheduler σ × Store
  | [] => (d, s)
  | id :: rest =>
    let (_, d, s) := d.unbind s id
    d.unbindAll s rest

def isScheduled (d : Scheduler σ) (s : Store) : Bool := s.isDue d.channel

def changedWatches : List Signal → List WatchId
  | [] => []
  | .change n :: rest => n.watch :: changedWatches rest
  | .wake :: rest => changedWatches rest

def countWakes : List Signal → Nat
  | [] => 0
  | .change _ :: rest => countWakes rest
  | .wake :: rest => countWakes rest + 1

def isAffected (changed : List WatchId) (b : Binding σ) : Bool :=
  b.fresh || b.watches.any fun id => changed.contains id

abbrev Outcome (σ : Type) := Except EvalError (BindingTarget σ)

def refresh (evaluator : Evaluator) (b : Binding σ) (s : Store) : Outcome σ × Store :=
  match b.value.evaluate (evaluator.evaluate s.heap b.scope) with
  | .ok value =>
    let (target, s) := b.target.run value s
    (.ok target, s)
  | .error e => (.error e, s)

/-- Evaluates bindings one after another, each against the model that the ones before it left. -/
def refreshAll (evaluator : Evaluator) :
    List (BindingId × Binding σ) → Store → List (BindingId × Outcome σ) × Store
  | [], s => ([], s)
  | (id, b) :: rest, s =>
    let (outcome, s) := refresh evaluator b s
    let (outcomes, s) := refreshAll evaluator rest s
    ((id, outcome) :: outcomes, s)

def evaluated : List (BindingId × Outcome σ) → List BindingId
  | [] => []
  | (id, .ok _) :: rest => id :: evaluated rest
  | (_, .error _) :: rest => evaluated rest

def failures : List (BindingId × Outcome σ) → List (BindingId × EvalError)
  | [] => []
  | (_, .ok _) :: rest => failures rest
  | (id, .error e) :: rest => (id, e) :: failures rest

def settle (outcome : Outcome σ) (b : Binding σ) : Binding σ :=
  match outcome with
  | .ok target => { b with target, fresh := false }
  | .error _ => { b with fresh := false }

def settleAll (bindings : Dict BindingId (Binding σ)) :
    List (BindingId × Outcome σ) → Dict BindingId (Binding σ)
  | [] => bindings
  | (id, outcome) :: rest => settleAll (bindings.modify id (settle outcome)) rest

def checkpointWith (d : Scheduler σ) (s : Store) (received : List Signal) :
    Report × Scheduler σ × Store :=
  let (queued, s) := s.drain d.channel
  let signals := received ++ queued
  let changed := changedWatches signals
  let affected := d.bindings.toList.filter fun e => isAffected changed e.2
  let (outcomes, s) := refreshAll d.evaluator affected s
  let sequence := d.sequence + 1
  (⟨sequence, changed.length, countWakes signals, evaluated outcomes, failures outcomes⟩,
    { d with bindings := settleAll d.bindings outcomes, sequence }, s)

def checkpoint (d : Scheduler σ) (s : Store) : Report × Scheduler σ × Store := d.checkpointWith s []

def runScheduled (d : Scheduler σ) (s : Store) : Option Report × Scheduler σ × Store :=
  if d.settings.autoCheckpoint && d.isScheduled s then
    let (report, d, s) := d.checkpoint s
    (some report, d, s)
  else (none, d, s)

def wakeTimes (s : Store) (k : ChannelId) : Nat → Store
  | 0 => s
  | n + 1 => wakeTimes (s.send k .wake).2 k n

/-- A checkpoint as soon as there is a signal. `late` requests arrive while the wait blocks, or
after it when it does not block; without any, a wait that blocks ends with nothing. -/
def wait (d : Scheduler σ) (s : Store) (late : Nat) : Option Report × Scheduler σ × Store :=
  if ¬ d.settings.autoCheckpoint then (none, d, wakeTimes s d.channel late)
  else if d.isScheduled s then
    let (report, d, s) := d.checkpoint s
    (some report, d, wakeTimes s d.channel late)
  else
    let (first, s) := (wakeTimes s d.channel late).receive d.channel
    match first with
    | none => (none, d, s)
    | some signal =>
      let (report, d, s) := d.checkpointWith s [signal]
      (some report, d, s)

def drop (d : Scheduler σ) (s : Store) : Store :=
  let (_, s) := d.registry.closeAll s
  s.closeChannel d.channel

end Scheduler

end ReactivePage
