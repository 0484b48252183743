import ReactivePage.Replay.Matcher
import ReactivePage.Text.CaseFold
import ReactivePage.Text.WordChar

/-!
The script element that carries recorded requests inside a page.

`find?` looks for the first script element whose opening tag has `type="T"` in it, quotes of
either kind, up to case. It is not a parser of markup: a tag lasts from `<script` to the next `>`,
the attribute is found by the word `type` at a word boundary in front of that `>`, and the element
ends at the first `</script` behind the tag. `render` writes such an element and keeps `</` from
ending it early.

The search goes over a page once and never goes back. Of several places in one tag where the
attribute stands, the first will do: the tag ends at the same `>` from each. And the first tag
with the attribute settles the answer: where no `>` or no `</script` is left behind it, none is
left behind a later one.
-/

namespace ReactivePage.ScriptBlock

def dropMark? (mark : Char → Bool) (s : List Char) : Option (List Char) :=
  match Text.trimStart s with
  | c :: rest => if mark c then some rest else none
  | [] => none

def isQuote (c : Char) : Bool := c = '"' || c = '\''

def dropQuote? : List Char → Option (List Char)
  | c :: rest => if isQuote c then some rest else none
  | [] => none

def dropAttribute? (folded : List Char) (before : Option Char) (s : List Char) :
    Option (List Char) := do
  let rest ← Text.dropFolded? ['t', 'y', 'p', 'e'] s
  if Text.isBoundary before s.head? then
    let rest ← dropMark? (· = '=') rest
    let rest ← dropMark? isQuote rest
    let rest ← Text.dropFolded? folded rest
    dropQuote? rest
  else none

def dropTag? : List Char → Option (List Char)
  | [] => none
  | c :: rest => if c = '>' then some rest else dropTag? rest

def isClosing (s : List Char) : Bool :=
  match s with
  | '<' :: '/' :: rest =>
    match Text.dropFolded? ['s', 'c', 'r', 'i', 'p', 't'] rest with
    | some rest => (dropMark? (· = '>') rest).isSome
    | none => false
  | _ => false

def body? : List Char → Option (List Char)
  | [] => none
  | c :: rest => if isClosing (c :: rest) then some [] else (body? rest).map (c :: ·)

def isOpening (s : List Char) : Bool :=
  match s with
  | '<' :: rest =>
    match Text.dropFolded? ['s', 'c', 'r', 'i', 'p', 't'] rest with
    | some rest => Text.isBoundary (some 't') rest.head?
    | none => false
  | _ => false

/-- The text behind the first opening tag with the attribute. `inside` says whether an opening tag
has started and not ended yet. No attribute stands inside the word `script`, so a tag may count as
started from its `<` on. -/
def behindTag? (folded : List Char) (inside : Bool) (before : Option Char) :
    List Char → Option (List Char)
  | [] => none
  | c :: rest =>
    if c = '>' then behindTag? folded false (some c) rest
    else if inside || isOpening (c :: rest) then
      match dropAttribute? folded before (c :: rest) with
      | some behind => dropTag? behind
      | none => behindTag? folded true (some c) rest
    else behindTag? folded false (some c) rest

def findChars? (scriptType : List Char) (page : List Char) : Option (List Char) := do
  body? (← behindTag? (scriptType.map Text.foldCase) false none page)

def isMatchable (scriptType : String) : Bool :=
  (Matcher.ofType scriptType.toList).size ≤ Matcher.sizeLimit

def find? (scriptType page : String) : Option (Option String) :=
  if isMatchable scriptType then
    some ((findChars? scriptType.toList page.toList).map String.ofList)
  else none

def escapeQuotes (s : List Char) : List Char :=
  s.flatMap fun c => if c = '"' then ['&', 'q', 'u', 'o', 't', ';'] else [c]

def escapeClosing : List Char → List Char
  | [] => []
  | [c] => [c]
  | c :: d :: rest =>
    if c = '<' ∧ d = '/' then '<' :: '\\' :: '/' :: escapeClosing rest
    else c :: escapeClosing (d :: rest)

def render (scriptType body : String) : String :=
  "<script type=\"" ++ String.ofList (escapeQuotes scriptType.toList) ++ "\">"
    ++ String.ofList (escapeClosing body.toList) ++ "</script>"

end ReactivePage.ScriptBlock
