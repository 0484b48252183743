import ReactivePage.Checkpoint.Evaluator
import ReactivePage.Proofs.Json.Same
import ReactivePage.Proofs.Model.Nesting
import ReactivePage.Proofs.Text.Trimming

namespace ReactivePage

theorem Path.read_trim {body : String} {path : Path} :
    Path.read (Text.trim body) = .ok path ↔ Path.read body = .ok path := by
  have hparse : Path.parse (Text.trim body) = Path.parse body := by
    rw [parse, parse, Text.trim, String.toList_ofList, Text.trimChars_trimChars]
  rw [read, read, hparse]
  cases Path.parse body with
  | error e => exact iff_of_false nofun nofun
  | ok p => rfl

namespace Evaluator

def sameOutcome : Except EvalError Json → Except EvalError Json → Bool
  | .ok a, .ok b => a.same b
  | .error (.unresolved body), .error (.unresolved body') => body = body'
  | _, _ => false

theorem sameOutcome_trans {x y z : Except EvalError Json} (h : sameOutcome x y = true)
    (h' : sameOutcome y z = true) : sameOutcome x z = true := by
  cases x with
  | ok a =>
    cases y with
    | error e => simp [sameOutcome] at h
    | ok b =>
      cases z with
      | error e => simp [sameOutcome] at h'
      | ok c => exact Json.same_trans a b c h h'
  | error e =>
    cases e with
    | invalid body reason => simp [sameOutcome] at h
    | host body message => simp [sameOutcome] at h
    | unresolved body =>
      cases y with
      | ok b => simp [sameOutcome] at h
      | error e =>
        cases e with
        | invalid body reason => simp [sameOutcome] at h
        | host body message => simp [sameOutcome] at h
        | unresolved body' =>
          obtain rfl : body = body' := by simpa [sameOutcome] using h
          exact h'

theorem sameOutcome_evaluatePath {h h' : Heap} {scope : Handle} {body : String} {path : Path}
    (hread : Path.read body = .ok path)
    (hv : Value.sameOption (h.lookup? scope path) (h'.lookup? scope path) = true)
    (hc : ∀ c, h.lookup? scope path = some (.ref c) → h'.toJson (.ref c) = h.toJson (.ref c)) :
    sameOutcome (evaluatePath h scope body) (evaluatePath h' scope body) = true := by
  simp only [evaluatePath, hread]
  cases hl : h.lookup? scope path with
  | none =>
    cases hl' : h'.lookup? scope path with
    | none => simp [sameOutcome]
    | some v' => simp [hl, hl', Value.sameOption] at hv
  | some v =>
    cases hl' : h'.lookup? scope path with
    | none => simp [hl, hl', Value.sameOption] at hv
    | some v' =>
      rw [hl, hl'] at hv
      cases v with
      | scalar a =>
        cases v' with
        | scalar b => exact hv
        | ref c => simp [Value.sameOption, Value.same] at hv
      | ref c =>
        have heq : Value.ref c = v' := by
          cases v' with
          | scalar b => simp [Value.sameOption, Value.same] at hv
          | ref d => simpa [Value.sameOption, Value.same] using hv
        subst heq
        simp only [sameOutcome, hc c hl]
        exact Json.same_refl _

end Evaluator

namespace Heap

theorem toJson_congr {h h' : Heap} {c : Handle} (hc : h'.contents c = h.contents c)
    (hs : ∀ v ∈ (h.contents c).values, v.handle? = none) :
    h'.toJson (.ref c) = h.toJson (.ref c) := by
  rw [toJson, toJson, toJson?, toJson?]
  refine congrArg (·.getD .null) (jsonWithin?_congr hc fun v hv => ?_)
  cases v with
  | scalar j => rw [jsonWithin?_scalar, jsonWithin?_scalar]
  | ref d => cases hs _ hv

end Heap

end ReactivePage
