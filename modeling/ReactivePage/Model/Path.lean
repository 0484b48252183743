import ReactivePage.Decimal.Digits
import ReactivePage.Text.Blank

/-!
Paths into a model.

A path is a nonempty list of steps. In text, segments stand between points, and a segment is a
head and any number of indices in brackets: `todos[0].title` and `todos.0.title` are one path.
A step that reads as a 64-bit number is an index, whatever its spelling; so printing a path and
reading it again gives the same steps.
-/

namespace ReactivePage

inductive Step
  | key (k : String)
  | index (i : Nat)
  deriving DecidableEq

namespace Step

def asKey : Step → String
  | key k => k
  | index i => String.ofList (Digits.write i)

def asIndex? : Step → Option Nat
  | key _ => none
  | index i => some i

def position? : Step → Option Nat
  | key k => Digits.word? k.toList
  | index i => some i

def ofHead (head : List Char) : Step :=
  match Digits.word? head with
  | some i => index i
  | none => key (String.ofList head)

end Step

structure Path where
  steps : List Step
  steps_ne_nil : steps ≠ []
  deriving DecidableEq

inductive PathError
  | emptyPath
  | emptySegment
  | unclosedBracket
  | badIndex
  | textAfterBracket
  deriving DecidableEq

def PathError.reason : PathError → String
  | emptyPath => "path is empty"
  | emptySegment => "empty path segment"
  | unclosedBracket => "unclosed '['"
  | badIndex => "index must be a non-negative integer"
  | textAfterBracket => "unexpected text after ']'"

namespace Path

def splitPoints : List Char → List (List Char)
  | [] => [[]]
  | c :: rest =>
    if c = '.' then [] :: splitPoints rest
    else match splitPoints rest with
      | [] => [[c]]
      | piece :: pieces => (c :: piece) :: pieces

def groups : Nat → List Char → Except PathError (List Step)
  | _, [] => .ok []
  | 0, _ => .error .textAfterBracket
  | fuel + 1, c :: rest =>
    if c ≠ '[' then .error .textAfterBracket
    else match rest.span (· ≠ ']') with
      | (_, []) => .error .unclosedBracket
      | (inner, _ :: after) =>
        match Digits.word? (Text.trimChars inner) with
        | none => .error .badIndex
        | some i => (Step.index i :: ·) <$> groups fuel after

/-- The steps of a segment. Only a segment behind the first may consist of groups alone. -/
def segment (isFirst : Bool) (s : List Char) : Except PathError (List Step) :=
  let (head, rest) := s.span (· ≠ '[')
  match Text.trimChars head with
  | [] => if rest = [] ∨ isFirst then .error .emptySegment else groups rest.length rest
  | head => (Step.ofHead head :: ·) <$> groups rest.length rest

def segments : Bool → List (List Char) → Except PathError (List Step)
  | _, [] => .ok []
  | isFirst, s :: rest => do
    let steps ← segment isFirst s
    return steps ++ (← segments false rest)

def ofSteps? (steps : List Step) : Option Path :=
  if h : steps = [] then none else some ⟨steps, h⟩

def parse (text : String) : Except PathError Path :=
  match Text.trimChars text.toList with
  | [] => .error .emptyPath
  | s =>
    match segments true (splitPoints s) with
    | .error e => .error e
    | .ok steps =>
      match ofSteps? steps with
      | some path => .ok path
      | none => .error .emptySegment

def leaf (p : Path) : Step := p.steps.getLast p.steps_ne_nil

def display (p : Path) : String := ".".intercalate (p.steps.map Step.asKey)

end Path

structure InvalidPath where
  path : String
  error : PathError
  deriving DecidableEq

def InvalidPath.message (e : InvalidPath) : String :=
  "invalid watch path '" ++ e.path ++ "': " ++ e.error.reason

def Path.read (text : String) : Except InvalidPath Path :=
  (Path.parse text).mapError fun e => ⟨text, e⟩

end ReactivePage
