import ReactivePage.Json.Printer
import ReactivePage.Model.Heap

namespace ReactivePage

inductive EvalError
  | unresolved (expression : String)
  | invalid (expression reason : String)
  | host (expression message : String)
  deriving DecidableEq

def EvalError.message : EvalError → String
  | unresolved expression => "expression '" ++ expression ++ "' did not resolve"
  | invalid expression reason => "invalid expression '" ++ expression ++ "': " ++ reason
  | host expression message => "evaluating '" ++ expression ++ "' failed: " ++ message

structure Evaluator where
  evaluate : Heap → Handle → String → Except EvalError Json
  dependencies : String → List String

namespace Evaluator

def evaluatePath (h : Heap) (scope : Handle) (body : String) : Except EvalError Json :=
  match Path.read body with
  | .error e => .error (.invalid body e.message)
  | .ok path =>
    match h.lookup? scope path with
    | some v => .ok (h.toJson v)
    | none => .error (.unresolved (Text.trim body))

def paths : Evaluator where
  evaluate := evaluatePath
  dependencies := fun body => [Text.trim body]

def splitPlus : List Char → List (List Char)
  | [] => [[]]
  | c :: rest =>
    if c = '+' then [] :: splitPlus rest
    else match splitPlus rest with
      | [] => [[c]]
      | piece :: pieces => (c :: piece) :: pieces

def evaluatePiece (h : Heap) (scope : Handle) (piece : List Char) : Except EvalError Json :=
  match Text.trimChars piece with
  | '\'' :: text => .ok (.string (String.ofList text))
  | _ => evaluatePath h scope (String.ofList piece)

def isQuoted : List Char → Bool
  | '\'' :: _ => true
  | _ => false

/-- Reads a body as pieces with plus signs between them and joins their texts; a single piece
keeps its type. A body that starts with an exclamation mark is refused. -/
def joined : Evaluator where
  evaluate := fun h scope body =>
    match Text.trimChars body.toList with
    | '!' :: _ => .error (.host body "host failure")
    | s =>
      match splitPlus s with
      | [piece] => evaluatePiece h scope piece
      | pieces => do
        let values ← pieces.mapM fun piece => evaluatePiece h scope piece
        return .string (String.join (values.map Json.display))
  dependencies := fun body =>
    let s := (Text.trimChars body.toList).dropWhile (· = '!')
    let pieces := (splitPlus s).map Text.trimChars
    (pieces.filter fun piece => !isQuoted piece).map String.ofList

end Evaluator

end ReactivePage
