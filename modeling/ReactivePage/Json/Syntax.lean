import ReactivePage.Decimal.Digits
import ReactivePage.Json.Basic

namespace ReactivePage

namespace Json

structure Numeral where
  negative : Bool
  whole : List Char
  fraction : List Char
  exponent : Option (Bool × List Char)

/-- A character of a string as written, or the UTF-16 unit of a `\u` escape. -/
inductive StringItem
  | char (c : Char)
  | unit (code : Nat)

inductive Source
  | null
  | bool (b : Bool)
  | number (n : Numeral)
  | string (items : List StringItem)
  | array (items : List Source)
  | object (members : List (List StringItem × Source))

namespace Source

def isSpace (c : Char) : Bool := c = ' ' || c = '\t' || c = '\n' || c = '\r'

def skipSpace (s : List Char) : List Char := s.dropWhile isSpace

def hexValue? (c : Char) : Option Nat :=
  if c.isDigit then some (c.toNat - '0'.toNat)
  else if 'a' ≤ c ∧ c ≤ 'f' then some (c.toNat - 'a'.toNat + 10)
  else if 'A' ≤ c ∧ c ≤ 'F' then some (c.toNat - 'A'.toNat + 10)
  else none

def escape? (c : Char) : Option Char :=
  if c = '"' ∨ c = '\\' ∨ c = '/' then some c
  else if c = 'b' then some (Char.ofNat 0x08)
  else if c = 'f' then some (Char.ofNat 0x0C)
  else if c = 'n' then some '\n'
  else if c = 'r' then some '\r'
  else if c = 't' then some '\t'
  else none

def hexNumber? (s : List Char) : Option Nat :=
  s.foldl (fun acc c => do return 16 * (← acc) + (← hexValue? c)) (some 0)

def string? : List Char → Option (List StringItem × List Char)
  | [] => none
  | '"' :: rest => some ([], rest)
  | '\\' :: 'u' :: a :: b :: c :: d :: rest => do
    let code ← hexNumber? [a, b, c, d]
    let (items, after) ← string? rest
    return (.unit code :: items, after)
  | '\\' :: e :: rest => do
    let c ← escape? e
    let (items, after) ← string? rest
    return (.char c :: items, after)
  | c :: rest =>
    if c.toNat < 0x20 ∨ c = '\\' then none
    else do
      let (items, after) ← string? rest
      return (.char c :: items, after)

def fraction? : List Char → Option (List Char × List Char)
  | '.' :: rest =>
    match Digits.run rest with
    | ([], _) => none
    | (digits, after) => some (digits, after)
  | s => some ([], s)

def exponentSign : List Char → Bool × List Char
  | '+' :: rest => (false, rest)
  | '-' :: rest => (true, rest)
  | s => (false, s)

def exponent? : List Char → Option (Option (Bool × List Char) × List Char)
  | c :: rest =>
    if c = 'e' ∨ c = 'E' then
      let (negative, rest) := exponentSign rest
      match Digits.run rest with
      | ([], _) => none
      | (digits, after) => some (some (negative, digits), after)
    else some (none, c :: rest)
  | [] => some (none, [])

def whole? (s : List Char) : Option (List Char × List Char) :=
  match Digits.run s with
  | ([], _) => none
  | ('0' :: _ :: _, _) => none
  | found => some found

def sign : List Char → Bool × List Char
  | '-' :: rest => (true, rest)
  | s => (false, s)

def number? (s : List Char) : Option (Numeral × List Char) := do
  let (negative, s) := sign s
  let (whole, s) ← whole? s
  let (fraction, s) ← fraction? s
  let (exponent, s) ← exponent? s
  return (⟨negative, whole, fraction, exponent⟩, s)

def dropWord? : List Char → List Char → Option (List Char)
  | [], s => some s
  | c :: word, d :: s => if c = d then dropWord? word s else none
  | _ :: _, [] => none

mutual

def value? : Nat → List Char → Option (Source × List Char)
  | 0, _ => none
  | fuel + 1, s =>
    match skipSpace s with
    | '"' :: rest => (string? rest).map fun r => (string r.1, r.2)
    | '[' :: rest =>
      match skipSpace rest with
      | ']' :: after => some (array [], after)
      | _ => (items? fuel rest).map fun r => (array r.1, r.2)
    | '{' :: rest =>
      match skipSpace rest with
      | '}' :: after => some (object [], after)
      | _ => (members? fuel rest).map fun r => (object r.1, r.2)
    | 't' :: rest => (dropWord? ['r', 'u', 'e'] rest).map fun after => (bool true, after)
    | 'f' :: rest => (dropWord? ['a', 'l', 's', 'e'] rest).map fun after => (bool false, after)
    | 'n' :: rest => (dropWord? ['u', 'l', 'l'] rest).map fun after => (null, after)
    | s => (number? s).map fun r => (number r.1, r.2)

def items? : Nat → List Char → Option (List Source × List Char)
  | 0, _ => none
  | fuel + 1, s => do
    let (item, s) ← value? fuel s
    match skipSpace s with
    | ',' :: rest =>
      let (items, after) ← items? fuel rest
      return (item :: items, after)
    | ']' :: after => return ([item], after)
    | _ => none

def members? : Nat → List Char → Option (List (List StringItem × Source) × List Char)
  | 0, _ => none
  | fuel + 1, s =>
    match skipSpace s with
    | '"' :: rest => do
      let (key, s) ← string? rest
      match skipSpace s with
      | ':' :: rest =>
        let (item, s) ← value? fuel rest
        match skipSpace s with
        | ',' :: rest =>
          let (members, after) ← members? fuel rest
          return ((key, item) :: members, after)
        | '}' :: after => return ([(key, item)], after)
        | _ => none
      | _ => none
    | _ => none

end

/-- The tree of a text that holds one value and white space around it. Each call of the reader
takes a character or is the only one between two that do, which bounds their number. -/
def read? (text : String) : Option Source := do
  let s := text.toList
  let (tree, rest) ← value? (2 * s.length + 2) s
  if skipSpace rest = [] then some tree else none

end Source

def maxDepth : Nat := 127

def maxInteger : Nat := Nat.pow 2 64 - 1

namespace Numeral

def accumulate (n : Nat) : List Char → Nat × List Char
  | [] => (n, [])
  | c :: rest =>
    let next := 10 * n + (c.toNat - '0'.toNat)
    if next ≤ maxInteger then accumulate next rest else (n, c :: rest)

/-- Steps of at most `308` decimal places, each rounded, since no double holds a greater power
of ten. Fuel is the number of places. -/
def divideTenPow : Nat → Binary64 → Nat → Option Binary64
  | 0, x, k => if k = 0 then some x else none
  | fuel + 1, x, k =>
    if k ≤ 308 then do x.div (← Binary64.tenPow k)
    else if x.isZero then some x
    else do divideTenPow fuel (← x.div (← Binary64.tenPow 308)) (k - 308)

/-- The magnitude `significand * 10 ^ e`, rounded once for the significand and once for each
product or quotient. There is none beyond the greatest double. -/
def magnitude? (significand : Nat) (e : Int) : Option Binary64 := do
  let x ← Binary64.ofRatio significand 1
  if 0 ≤ e then
    if e ≤ 308 then x.mul (← Binary64.tenPow e.toNat)
    else if x.isZero then some x
    else none
  else divideTenPow e.natAbs x e.natAbs

/-- The number so written. Digits that would take the significand out of the integers are
dropped: those in front of the point raise the exponent, those behind it do not count. -/
def number? (n : Numeral) : Option Number :=
  let (significand, dropped) := accumulate 0 n.whole
  match n.fraction, n.exponent, dropped with
  | [], none, [] =>
    if !n.negative then some (.integer significand)
    else if 0 < significand ∧ significand ≤ Nat.pow 2 63 then some (.integer (-significand))
    else (magnitude? significand 0).map fun x => .double x.neg
  | _, _, _ =>
    let (significand, rest) := accumulate significand n.fraction
    let places := n.fraction.length - rest.length
    let shift : Int := match n.exponent with
      | none => 0
      | some (negative, digits) => if negative then -(Digits.value digits) else Digits.value digits
    (magnitude? significand (dropped.length - places + shift)).map fun x =>
      .double (if n.negative then x.neg else x)

end Numeral

def decodeString? : List StringItem → Option (List Char)
  | [] => some []
  | .char c :: rest => (decodeString? rest).map (c :: ·)
  | .unit high :: rest =>
    if high < 0xD800 ∨ 0xE000 ≤ high then (decodeString? rest).map (Char.ofNat high :: ·)
    else match rest with
      | .unit low :: rest =>
        if high < 0xDC00 ∧ 0xDC00 ≤ low ∧ low < 0xE000 then
          (decodeString? rest).map
            (Char.ofNat (0x10000 + (high - 0xD800) * 0x400 + (low - 0xDC00)) :: ·)
        else none
      | _ => none

namespace Source

def text? : Source → Option String
  | string items => (decodeString? items).map String.ofList
  | _ => none

mutual

def toJson? (depth : Nat) : Source → Option Json
  | null => some .null
  | bool b => some (.bool b)
  | number n => n.number?.map .number
  | string items => (decodeString? items).map fun s => .string (String.ofList s)
  | array items => if depth = 0 then none else (toItems? (depth - 1) items).map .array
  | object members =>
    if depth = 0 then none else (toMembers? (depth - 1) members).map Json.ofMembers

def toItems? (depth : Nat) : List Source → Option (List Json)
  | [] => some []
  | item :: rest => do return (← toJson? depth item) :: (← toItems? depth rest)

def toMembers? (depth : Nat) : List (List StringItem × Source) → Option (List (String × Json))
  | [] => some []
  | (key, item) :: rest => do
    let key ← decodeString? key
    return (String.ofList key, ← toJson? depth item) :: (← toMembers? depth rest)

end

end Source

def parse? (text : String) : Option Json := do (← Source.read? text).toJson? maxDepth

end Json

end ReactivePage
