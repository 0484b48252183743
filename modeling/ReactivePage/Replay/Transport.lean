import ReactivePage.Replay.Cache

namespace ReactivePage

structure Transport (σ : Type) where
  send : Request → σ → Outcome × σ

structure Lens (σ α : Type) where
  get : σ → α
  set : σ → α → σ

namespace Transport

variable {σ : Type}

def recording (inner : Transport σ) (log : Lens σ Snapshot) : Transport σ where
  send := fun request s =>
    let (outcome, s) := inner.send request s
    (outcome, log.set s ((log.get s).add request.identity (Record.ofOutcome outcome)))

/-- Serves recorded exchanges, and passes on a request that has no record left. `complete` runs
after every request, served or passed on. -/
def replaying (inner : Transport σ) (cache : Lens σ Cache) (complete : σ → σ) : Transport σ where
  send := fun request s =>
    let (record, rest) := (cache.get s).lookup request.identity
    let s := cache.set s rest
    match record with
    | some r => (r.outcome, complete s)
    | none =>
      let (outcome, s) := inner.send request s
      (outcome, complete s)

end Transport

inductive ScriptEntry
  | fail (message : String)
  | echo
  | respond (response : Response)

structure Script where
  routes : Dict String (List ScriptEntry)
  served : Dict String Nat
  calls : Nat

namespace Script

def ofRoutes (routes : Dict String (List ScriptEntry)) : Script := ⟨routes, ∅, 0⟩

def next? (s : Script) (url : String) : Option ScriptEntry := do
  let entries ← s.routes.find? url
  let n := (s.served.find? url).getD 0
  entries[min n (entries.length - 1)]?

def answer (request : Request) : Option ScriptEntry → Outcome
  | some (.fail message) => .error (.failed message)
  | some .echo =>
    .ok ⟨200, ∅, request.method ++ " " ++ request.url ++ " " ++ request.body⟩
  | some (.respond response) => .ok response
  | none => .ok ⟨404, ∅, ""⟩

def send (request : Request) (s : Script) : Outcome × Script :=
  (answer request (s.next? request.url),
    { s with
      served := s.served.insert request.url ((s.served.find? request.url).getD 0 + 1)
      calls := s.calls + 1 })

end Script

def Transport.scripted {σ : Type} (script : Lens σ Script) : Transport σ where
  send := fun request s =>
    let (outcome, t) := Script.send request (script.get s)
    (outcome, script.set s t)

end ReactivePage
