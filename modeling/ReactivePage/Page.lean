import ReactivePage.Checkpoint.Scheduler
import ReactivePage.Replay.Transport
import ReactivePage.Template.Attribute

namespace ReactivePage

structure Page (σ : Type) where
  settings : Settings
  scheduler : Scheduler σ

inductive BindError
  | compile (e : CompileError)
  | watch (e : InvalidPath)

namespace Page

variable {σ : Type}

def create (s : Store) (settings : Settings) (evaluator : Evaluator) : Page σ × Store :=
  let (scheduler, s) := Scheduler.create s settings.scheduler evaluator
  (⟨settings, scheduler⟩, s)

def bindText (p : Page σ) (s : Store) (text : String) (scope : Handle) (target : BindingTarget σ) :
    Except InvalidPath (Option BindingId) × Page σ × Store :=
  match Descriptor.ofText? text with
  | none => (.ok none, p, s)
  | some value =>
    let (result, scheduler, s) := p.scheduler.bind s value scope target
    (some <$> result, { p with scheduler }, s)

/-- Binds compiled attributes in order, each to the target that is made for its name: the names
for which one was made, and the numbers of the bindings. At an error those already bound are
removed. -/
def bindCompiled (d : Scheduler σ) (s : Store) (scope : Handle)
    (makeTarget : String → BindingTarget σ) (made : List String) (bound : List BindingId) :
    List (String × Descriptor) →
      List String × Except InvalidPath (List BindingId) × Scheduler σ × Store
  | [] => (made, .ok bound, d, s)
  | (name, value) :: rest =>
    match d.bind s value scope (makeTarget name) with
    | (.ok id, d, s) => bindCompiled d s scope makeTarget (made ++ [name]) (bound ++ [id]) rest
    | (.error e, d, s) =>
      let (d, s) := d.unbindAll s bound
      (made ++ [name], .error e, d, s)

def bindAttributes (p : Page σ) (s : Store) (attributes : List Attribute) (scope : Handle)
    (makeTarget : String → BindingTarget σ) :
    List String × Except BindError (List BindingId) × Page σ × Store :=
  match Attribute.compileAll attributes with
  | .error e => ([], .error (.compile e), p, s)
  | .ok compiled =>
    let (made, result, scheduler, s) := bindCompiled p.scheduler s scope makeTarget [] [] compiled
    (made, result.mapError .watch, { p with scheduler }, s)

def recordedRequests (p : Page σ) (markup : String) : Except SnapshotError Cache :=
  Cache.ofPage p.settings.cache.scriptType markup

/-- Serves recorded requests before those of `inner` and asks for a checkpoint after every
request. The cache and the store are parts of the state of `inner`. -/
def hydrating {τ : Type} (p : Page σ) (inner : Transport τ) (cache : Lens τ Cache)
    (store : Lens τ Store) : Transport τ :=
  inner.replaying cache fun s => store.set s ((store.get s).send p.scheduler.channel .wake).2

end Page

end ReactivePage
