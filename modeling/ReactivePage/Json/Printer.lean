import ReactivePage.Decimal.Digits
import ReactivePage.Decimal.Shortest
import ReactivePage.Json.Basic

namespace ReactivePage

structure DoubleNotation where
  leastPlain : Int
  firstLarge : Int

/-- Doubles are positional from `1e-5` up to below `1e16`. -/
def Json.doubleNotation : DoubleNotation := ⟨-5, 16⟩

namespace Number

def exponentChars (e : Int) : List Char :=
  'e' :: (if e < 0 then '-' else '+') :: Digits.write e.natAbs

def plainChars (digits : List Char) (top : Int) : List Char :=
  if top < 0 then
    '0' :: '.' :: List.replicate (-top - 1).toNat '0' ++ digits
  else
    let whole := top.toNat + 1
    if digits.length ≤ whole then
      digits ++ List.replicate (whole - digits.length) '0' ++ ['.', '0']
    else digits.take whole ++ '.' :: digits.drop whole

def scientificChars (digits : List Char) (top : Int) : List Char :=
  match digits with
  | [d] => d :: exponentChars top
  | d :: rest => d :: '.' :: rest ++ exponentChars top
  | [] => []

def magnitudeChars (x : Binary64) : List Char :=
  if x.isZero then ['0', '.', '0']
  else
    let d := Decimal.stripZeros 20 (Decimal.shortest x)
    let digits := Digits.write d.digits
    let top := d.exponent + digits.length - 1
    if Json.doubleNotation.leastPlain ≤ top ∧ top < Json.doubleNotation.firstLarge then
      plainChars digits top
    else scientificChars digits top

def chars : Number → List Char
  | integer n => if n < 0 then '-' :: Digits.write n.natAbs else Digits.write n.natAbs
  | double x => if x.negative then '-' :: magnitudeChars x else magnitudeChars x

end Number

namespace Json

def hexDigit (n : Nat) : Char := Nat.digitChar n

def escapeChar (c : Char) : List Char :=
  if c = '"' then ['\\', '"']
  else if c = '\\' then ['\\', '\\']
  else if c.toNat < 0x20 then
    if c.toNat = 0x08 then ['\\', 'b']
    else if c.toNat = 0x0C then ['\\', 'f']
    else if c = '\n' then ['\\', 'n']
    else if c = '\r' then ['\\', 'r']
    else if c = '\t' then ['\\', 't']
    else ['\\', 'u', '0', '0', hexDigit (c.toNat / 16), hexDigit (c.toNat % 16)]
  else [c]

def stringChars (s : String) : List Char := '"' :: s.toList.flatMap escapeChar ++ ['"']

mutual

def chars : Json → List Char
  | null => ['n', 'u', 'l', 'l']
  | bool true => ['t', 'r', 'u', 'e']
  | bool false => ['f', 'a', 'l', 's', 'e']
  | number n => n.chars
  | string s => stringChars s
  | array items => '[' :: itemsChars items
  | object members => '{' :: membersChars members

def itemsChars : List Json → List Char
  | [] => [']']
  | [j] => chars j ++ [']']
  | j :: rest => chars j ++ ',' :: itemsChars rest

def membersChars : List (String × Json) → List Char
  | [] => ['}']
  | [(k, j)] => stringChars k ++ ':' :: chars j ++ ['}']
  | (k, j) :: rest => stringChars k ++ ':' :: chars j ++ ',' :: membersChars rest

end

def render (j : Json) : String := String.ofList j.chars

/-- The text of a value inside a template: a string as it stands, nothing for null, and compact
JSON for all else. -/
def display : Json → String
  | string s => s
  | null => ""
  | j => j.render

end Json

end ReactivePage
