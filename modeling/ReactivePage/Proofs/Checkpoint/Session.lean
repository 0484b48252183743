import ReactivePage.Checkpoint.Scheduler
import ReactivePage.Proofs.Checkpoint.Program
import ReactivePage.Proofs.Watch.Accounting

namespace ReactivePage

structure Session (σ : Type) where
  scheduler : Scheduler σ
  store : Store

inductive Operation (σ : Type)
  | act (program : Action Unit)
  | watch (target : Target)
  | unwatch (w : WatchId)
  | release (w : WatchId)
  | closeAll
  | bind (value : Descriptor) (scope : Handle) (target : BindingTarget σ)
  | unbind (id : BindingId)
  | checkpoint
  | runScheduled
  | wait (late : Nat)

namespace Scheduler

variable {σ : Type}

def affected (d : Scheduler σ) (s : Store) (received : List Signal) :
    List (BindingId × Binding σ) :=
  d.bindings.toList.filter fun e =>
    isAffected (changedWatches (received ++ (s.drain d.channel).1)) e.2

def turnMoments (evaluator : Evaluator) (b : Binding σ) (s : Store) : List Store :=
  match b.value.evaluate (evaluator.evaluate s.heap b.scope) with
  | .ok value => (b.target.receive value b.target.memory).moments s
  | .error _ => []

def turnsMoments (evaluator : Evaluator) : List (BindingId × Binding σ) → Store → List Store
  | [], _ => []
  | (_, b) :: rest, s =>
    turnMoments evaluator b s ++ turnsMoments evaluator rest (refresh evaluator b s).2

def moments (d : Scheduler σ) (s : Store) (received : List Signal) : List Store :=
  turnsMoments d.evaluator (d.affected s received) (s.drain d.channel).2

end Scheduler

namespace Session

variable {σ : Type}

def start (settings : SchedulerSettings) (evaluator : Evaluator) : Session σ :=
  let (scheduler, store) := Scheduler.create Store.empty settings evaluator
  ⟨scheduler, store⟩

def withRegistry (S : Session σ) (x : Registry × Store) : Session σ :=
  ⟨{ S.scheduler with registry := x.1 }, x.2⟩

def perform (S : Session σ) : Operation σ → Session σ
  | .act program => { S with store := (program.run S.store).2 }
  | .watch target =>
    match S.scheduler.watch S.store target with
    | .ok (_, scheduler, store) => ⟨scheduler, store⟩
    | .error _ => S
  | .unwatch w =>
    let (_, scheduler, store) := S.scheduler.unwatch S.store w
    ⟨scheduler, store⟩
  | .release w =>
    let (_, x) := S.scheduler.registry.release S.store w
    S.withRegistry x
  | .closeAll => S.withRegistry (S.scheduler.registry.closeAll S.store)
  | .bind value scope target =>
    let (_, scheduler, store) := S.scheduler.bind S.store value scope target
    ⟨scheduler, store⟩
  | .unbind id =>
    let (_, scheduler, store) := S.scheduler.unbind S.store id
    ⟨scheduler, store⟩
  | .checkpoint =>
    let (_, scheduler, store) := S.scheduler.checkpoint S.store
    ⟨scheduler, store⟩
  | .runScheduled =>
    let (_, scheduler, store) := S.scheduler.runScheduled S.store
    ⟨scheduler, store⟩
  | .wait late =>
    let (_, scheduler, store) := S.scheduler.wait S.store late
    ⟨scheduler, store⟩

/-- The stores that an operation passes through as its programs run. -/
def moments (S : Session σ) : Operation σ → List Store
  | .act program => program.moments S.store
  | .checkpoint => S.scheduler.moments S.store []
  | .runScheduled =>
    if S.scheduler.settings.autoCheckpoint && S.scheduler.isScheduled S.store
    then S.scheduler.moments S.store [] else []
  | .wait late =>
    if ¬ S.scheduler.settings.autoCheckpoint then []
    else if S.scheduler.isScheduled S.store then S.scheduler.moments S.store []
    else
      let (first, s) :=
        (Scheduler.wakeTimes S.store S.scheduler.channel late).receive S.scheduler.channel
      first.toList.flatMap fun signal => S.scheduler.moments s [signal]
  | _ => []

/-- What an operation names exists, and its programs write only values that exist. -/
def Admits (S : Session σ) (op : Operation σ) : Prop :=
  (∀ t ∈ S.moments op, t.heap.Closed) ∧
    match op with
    | .watch target => ∀ key, target.key = .ok key → key.Exists S.store.heap
    | .bind _ scope _ => scope < S.store.heap.next
    | _ => True

inductive Reachable (settings : SchedulerSettings) (evaluator : Evaluator) : Session σ → Prop
  | start : Reachable settings evaluator (start settings evaluator)
  | perform {S : Session σ} {op : Operation σ} :
      Reachable settings evaluator S → S.Admits op →
      Reachable settings evaluator (S.perform op)

end Session

end ReactivePage
