import ReactivePage.Template.MarkedText
import ReactivePage.Text.Blank

namespace ReactivePage

inductive Part
  | literal (text : String)
  | expression (body : String)
  deriving DecidableEq

namespace Part

def content : Part → String
  | literal text => text
  | expression body => body

def isExpression : Part → Bool
  | literal _ => false
  | expression _ => true

def hasExpressions (parts : List Part) : Bool := parts.any isExpression

def bodies : List Part → List String
  | [] => []
  | literal _ :: rest => bodies rest
  | expression body :: rest => body :: bodies rest

def ofRun : List Char → List Part
  | [] => []
  | run => [literal (String.ofList run)]

def ofMarks (marks : List Mustache.Mark) : List Part :=
  match _h : Mustache.Mark.first? marks with
  | none => ofRun (Mustache.Mark.text marks)
  | some (before, body, behind) =>
    ofRun before ++ expression (String.ofList (Text.trimChars body)) :: ofMarks behind
termination_by marks.length
decreasing_by exact Mustache.Mark.length_of_first? _h

def ofChars (s : List Char) : List Part := ofMarks (Mustache.Mark.ofChars s)

theorem ofChars_of_first?_none {s : List Char} (h : Mustache.first? s = none) :
    ofChars s = ofRun s := by
  have hm : Mustache.Mark.first? (Mustache.Mark.ofChars s) = none := by
    rw [Mustache.Mark.first?_ofChars, h]
    rfl
  rw [ofChars, ofMarks]
  split
  · rw [Mustache.Mark.text_ofChars]
  · next hs => simp [hm] at hs

theorem ofChars_of_first?_some {s before body after : List Char}
    (h : Mustache.first? s = some (before, body, after)) :
    ofChars s =
      ofRun before ++ expression (String.ofList (Text.trimChars body)) :: ofChars after := by
  have hm : Mustache.Mark.first? (Mustache.Mark.ofChars s) =
      some (before, body, Mustache.Mark.ofChars after) := by
    rw [Mustache.Mark.first?_ofChars, h]
    rfl
  rw [ofChars, ofMarks]
  split
  · next hs => simp [hm] at hs
  · next hs =>
    rw [hm] at hs
    cases hs
    rfl

def ofText (text : String) : List Part :=
  match ofChars text.toList with
  | [] => [literal text]
  | parts => parts

def source : Part → List Char
  | literal text => text.toList
  | expression body => '{' :: '{' :: body.toList ++ ['}', '}']

def toTemplate (parts : List Part) : String := String.ofList (parts.flatMap source)

def escapeNewlines (text : String) : String :=
  String.ofList (text.toList.flatMap fun c => if c = '\n' then ['\\', 'n'] else [c])

def display : Part → String
  | literal text => "\"" ++ escapeNewlines text ++ "\""
  | expression body => "\x7b\x7b" ++ escapeNewlines body ++ "\x7d\x7d"

/-- Nothing but spaces, tabs and line feeds: formatting between tags, which is never shown. -/
def isFormatting (text : String) : Bool :=
  text.toList.all fun c => c = ' ' || c = '\t' || c = '\n'

end Part

end ReactivePage
