import ReactivePage.Text.CaseFold

/-!
The memory that a matcher for script elements takes.

A matcher is a graph of states that reads a page byte by byte, from its end. It holds the type that
it looks for up to case, so it grows with each character of the type, and a type may be too large
for it. States are made in the order in which they read, so what stands last in a page is made
first. Sizes are in bytes.
-/

namespace ReactivePage

/-- A matcher so far: its states, which are numbered from 0, and the bytes of the lists in them. -/
structure Matcher where
  states : Nat
  lists : Nat

namespace Matcher

def size (m : Matcher) : Nat := 32 * m.states + m.lists

def addStates (n : Nat) (m : Matcher) : Matcher := { m with states := m.states + n }

def addBranch (m : Matcher) : Matcher := { m with lists := m.lists + 4 }

abbrev ByteRange := Nat × Nat

def addByteChoice (ranges : Nat) (m : Matcher) : Matcher :=
  { m with states := m.states + 2, lists := m.lists + 8 * ranges }

structure Link where
  next : Nat
  range : ByteRange
  deriving DecidableEq

def digest (numbers : List Nat) : UInt64 :=
  numbers.foldl (fun h n => (h ^^^ n.toUInt64) * 1099511628211) 14695981039346656037

def Link.slot (l : Link) : Nat := (digest [l.next, l.range.1, l.range.2] % 1000).toNat

abbrev Links := List (Link × Nat)

/-- The state of a link that is still in the table: a later link takes the slot of an earlier
one. -/
def sharedState? (links : Links) (l : Link) : Option Nat :=
  match links.find? fun known => known.1.slot = l.slot with
  | some (known, state) => if known = l then some state else none
  | none => none

def addSequence (next : Nat) : List ByteRange → Matcher × Links → Matcher × Links
  | [], built => built
  | range :: rest, (m, links) =>
    match sharedState? links ⟨next, range⟩ with
    | some state => addSequence state rest (m, links)
    | none => addSequence m.states rest (m.addStates 1, (⟨next, range⟩, m.states) :: links)

def addSequences (next : Nat) : List (List ByteRange) → Matcher × Links → Matcher
  | [], built => built.1
  | sequence :: rest, built =>
    let (m, links) := addSequence next sequence built
    addSequences next rest (m.addBranch, links)

def addChoice (sequences : List (List ByteRange)) (m : Matcher) : Matcher :=
  addSequences (m.states + 1) sequences (m.addStates 2, [])

def addRepeated (part : Matcher → Matcher) (m : Matcher) : Matcher :=
  (part (m.addStates 1)).addBranch.addBranch

def encode (c : Char) : List ByteRange :=
  (String.utf8EncodeChar c).map fun byte => (byte.toNat, byte.toNat)

/-- Puts a character in front of others. With the next one it makes a single sequence if the two
are neighbours that differ in the last byte only. -/
def consCharacter (c : Char) : List (List ByteRange) → List (List ByteRange)
  | [] => [encode c]
  | sequence :: rest =>
    match (encode c).getLast?, sequence.getLast? with
    | some (byte, _), some (first, last) =>
      if (encode c).dropLast = sequence.dropLast ∧ byte + 1 = first then
        ((encode c).dropLast ++ [(byte, last)]) :: rest
      else encode c :: sequence :: rest
    | _, _ => encode c :: sequence :: rest

def ofCharacters (characters : List Char) : List (List ByteRange) :=
  characters.foldr consCharacter []

def addCharacter (c : Char) (m : Matcher) : Matcher :=
  match Text.caseVariants c with
  | [_] => m.addStates c.utf8Size
  | variants =>
    if variants.all (·.toNat < 0x80) then m.addByteChoice variants.length
    else m.addChoice (ofCharacters variants)

def addText (s : List Char) (m : Matcher) : Matcher := s.foldr addCharacter m

def aboveAscii : List (List ByteRange) :=
  [[(0xC2, 0xDF), (0x80, 0xBF)],
    [(0xE0, 0xE0), (0xA0, 0xBF), (0x80, 0xBF)],
    [(0xE1, 0xEC), (0x80, 0xBF), (0x80, 0xBF)],
    [(0xED, 0xED), (0x80, 0x9F), (0x80, 0xBF)],
    [(0xEE, 0xEF), (0x80, 0xBF), (0x80, 0xBF)],
    [(0xF0, 0xF0), (0x90, 0xBF), (0x80, 0xBF), (0x80, 0xBF)],
    [(0xF1, 0xF3), (0x80, 0xBF), (0x80, 0xBF), (0x80, 0xBF)],
    [(0xF4, 0xF4), (0x80, 0x8F), (0x80, 0xBF), (0x80, 0xBF)]]

def anyCharacter : List (List ByteRange) := [(0x00, 0x7F)] :: aboveAscii

def insideTag : List (List ByteRange) := [(0x00, 0x3D)] :: [(0x3F, 0x7F)] :: aboveAscii

def white : List (List ByteRange) :=
  [[(0x09, 0x0D)], [(0x20, 0x20)],
    [(0xC2, 0xC2), (0x85, 0x85)],
    [(0xC2, 0xC2), (0xA0, 0xA0)],
    [(0xE1, 0xE1), (0x9A, 0x9A), (0x80, 0x80)],
    [(0xE2, 0xE2), (0x80, 0x80), (0x80, 0x8A)],
    [(0xE2, 0xE2), (0x80, 0x80), (0xA8, 0xA9)],
    [(0xE2, 0xE2), (0x80, 0x80), (0xAF, 0xAF)],
    [(0xE2, 0xE2), (0x81, 0x81), (0x9F, 0x9F)],
    [(0xE3, 0xE3), (0x80, 0x80), (0x80, 0x80)]]

/-- The opening tag up to the type: its name, anything, the attribute, and a quote. The name ends
and the attribute starts at a boundary, which is a state. -/
def addOpening (m : Matcher) : Matcher :=
  m |> addByteChoice 2 |> addRepeated (addChoice white) |> addText ['=']
    |> addRepeated (addChoice white) |> addText ['t', 'y', 'p', 'e'] |> addStates 1
    |> addRepeated (addChoice insideTag) |> addStates 1
    |> addText ['<', 's', 'c', 'r', 'i', 'p', 't']

def addClosing (m : Matcher) : Matcher :=
  m |> addText ['>'] |> addRepeated (addChoice white)
    |> addText ['<', '/', 's', 'c', 'r', 'i', 'p', 't'] |> addRepeated (addChoice anyCharacter)
    |> addText ['>'] |> addRepeated (addChoice insideTag) |> addByteChoice 2

def ofType (scriptType : List Char) : Matcher :=
  ⟨0, 0⟩ |> addRepeated (addByteChoice 1) |> addClosing |> addText scriptType |> addOpening
    |> addStates 1

def sizeLimit : Nat := Nat.pow 2 20

end Matcher

end ReactivePage
