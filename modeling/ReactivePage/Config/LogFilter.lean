import ReactivePage.Decimal.Digits
import ReactivePage.Text.Alphanumeric

namespace ReactivePage.LogFilter

def levelNames : List String := ["off", "error", "warn", "info", "debug", "trace"]

def isLevel (s : List Char) : Bool :=
  levelNames.contains (String.ofList (s.map Char.toLower)) ||
    (Digits.word? s).any (· ≤ 5)

def startsDirective (c : Char) : Bool := Text.isAlphanumeric c || c = '-' || c = ':' || c = '_'

/-- Whether a piece between commas is a directive. The place of the equals sign is counted from
the first character that is not white space, and the level from the start of the piece. -/
def isDirective (piece : List Char) : Bool :=
  match Text.trimChars piece with
  | [] => false
  | c :: rest =>
    startsDirective c &&
      match (c :: rest).span (· ≠ '=') with
      | (_, []) => true
      | (target, _ :: _) =>
        match piece.drop (target.length + 1) with
        | [] => true
        | level => isLevel level

def splitCommas : List Char → List (List Char)
  | [] => [[]]
  | c :: rest =>
    if c = ',' then [] :: splitCommas rest
    else match splitCommas rest with
      | [] => [[c]]
      | piece :: pieces => (c :: piece) :: pieces

def isValid (filter : String) : Bool :=
  (splitCommas filter.toList).all fun piece => piece.isEmpty || isDirective piece

end ReactivePage.LogFilter
