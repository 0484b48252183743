import ReactivePage.Template.Part

namespace ReactivePage

/-- The text in front of the first placeholder, and the text behind each placeholder. -/
structure Format where
  head : String
  tail : List String
  deriving DecidableEq

namespace Format

def segments (f : Format) : List String := f.head :: f.tail

def placeholders (f : Format) : Nat := f.tail.length

def ofParts : List Part → Format
  | [] => ⟨"", []⟩
  | .literal text :: rest =>
    let f := ofParts rest
    ⟨text ++ f.head, f.tail⟩
  | .expression _ :: rest =>
    let f := ofParts rest
    ⟨"", f.head :: f.tail⟩

/-- Segments, each behind its value. A missing value is empty and a surplus one is unused. -/
def renderTail : List String → List String → String
  | [], _ => ""
  | segment :: rest, [] => segment ++ renderTail rest []
  | segment :: rest, value :: values => value ++ (segment ++ renderTail rest values)

def render (f : Format) (values : List String) : String := f.head ++ renderTail f.tail values

def display (f : Format) : String := f.render (f.tail.map fun _ => "\x7b\x7d")

theorem placeholders_ofParts (parts : List Part) :
    (ofParts parts).placeholders = (Part.bodies parts).length := by
  induction parts with
  | nil => rfl
  | cons part rest ih =>
    cases part with
    | literal text => exact ih
    | expression body => exact congrArg Nat.succ ih

end Format

end ReactivePage
