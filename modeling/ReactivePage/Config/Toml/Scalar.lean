import ReactivePage.Decimal.Binary64
import ReactivePage.Decimal.Digits

namespace ReactivePage.Toml

def isSpace (c : Char) : Bool := c = ' ' || c = '\t'

def skipSpace (s : List Char) : List Char := s.dropWhile isSpace

def newline? : List Char → Option (List Char)
  | '\n' :: rest => some rest
  | '\r' :: '\n' :: rest => some rest
  | _ => none

def isPlain (c : Char) : Bool := c = '\t' || (0x20 ≤ c.toNat && c.toNat ≠ 0x7F)

def hex? : Nat → Nat → List Char → Option (Nat × List Char)
  | 0, acc, s => some (acc, s)
  | n + 1, acc, c :: rest =>
    if c.isDigit then hex? n (16 * acc + (c.toNat - '0'.toNat)) rest
    else if 'a' ≤ c ∧ c ≤ 'f' then hex? n (16 * acc + (c.toNat - 'a'.toNat + 10)) rest
    else if 'A' ≤ c ∧ c ≤ 'F' then hex? n (16 * acc + (c.toNat - 'A'.toNat + 10)) rest
    else none
  | _ + 1, _, [] => none

def escape? : List Char → Option (Char × List Char)
  | 'b' :: rest => some (Char.ofNat 0x08, rest)
  | 'f' :: rest => some (Char.ofNat 0x0C, rest)
  | 'n' :: rest => some ('\n', rest)
  | 'r' :: rest => some ('\r', rest)
  | 't' :: rest => some ('\t', rest)
  | '"' :: rest => some ('"', rest)
  | '\\' :: rest => some ('\\', rest)
  | 'u' :: rest => do
    let (n, rest) ← hex? 4 0 rest
    if n.isValidChar then some (Char.ofNat n, rest) else none
  | 'U' :: rest => do
    let (n, rest) ← hex? 8 0 rest
    if n.isValidChar then some (Char.ofNat n, rest) else none
  | _ => none

def basic? : Nat → List Char → Option (List Char × List Char)
  | _, '"' :: rest => some ([], rest)
  | fuel + 1, '\\' :: rest => do
    let (c, rest) ← escape? rest
    let (cs, rest) ← basic? fuel rest
    return (c :: cs, rest)
  | fuel + 1, c :: rest =>
    if isPlain c then do
      let (cs, rest) ← basic? fuel rest
      return (c :: cs, rest)
    else none
  | _, _ => none

def literal? : List Char → Option (List Char × List Char)
  | [] => none
  | '\'' :: rest => some ([], rest)
  | c :: rest =>
    if isPlain c then (literal? rest).map fun r => (c :: r.1, r.2) else none

def skipBlank : List Char → List Char
  | [] => []
  | '\r' :: '\n' :: rest => skipBlank rest
  | c :: rest => if c = '\n' ∨ isSpace c then skipBlank rest else c :: rest

/-- Reads the quotes that may end a string on several lines: the ones that belong to it, and
whether it ends. Up to two quotes may stand in front of the three that end it. -/
def quotes (mark : Char) (s : List Char) : List Char × Bool × List Char :=
  let run := s.takeWhile (· = mark)
  let rest := s.dropWhile (· = mark)
  if run.length < 3 then (run, false, rest)
  else
    let own := min (run.length - 3) 2
    (List.replicate own mark, true, List.replicate (run.length - 3 - own) mark ++ rest)

/-- Reads a string on several lines behind its opening quotes. A backslash at the end of a line
takes the white space behind it away. Fuel is the length of the text. -/
def multiBasic? : Nat → List Char → Option (List Char × List Char)
  | 0, _ => none
  | _ + 1, [] => none
  | fuel + 1, '"' :: rest =>
    match quotes '"' ('"' :: rest) with
    | (own, true, rest) => some (own, rest)
    | (own, false, rest) => (multiBasic? fuel rest).map fun r => (own ++ r.1, r.2)
  | fuel + 1, '\\' :: rest =>
    match newline? (skipSpace rest) with
    | some rest => multiBasic? fuel (skipBlank rest)
    | none => do
      let (c, rest) ← escape? rest
      let (cs, rest) ← multiBasic? fuel rest
      return (c :: cs, rest)
  | fuel + 1, c :: rest =>
    match newline? (c :: rest) with
    | some rest => (multiBasic? fuel rest).map fun r => ('\n' :: r.1, r.2)
    | none =>
      if isPlain c then (multiBasic? fuel rest).map fun r => (c :: r.1, r.2) else none

def multiLiteral? : Nat → List Char → Option (List Char × List Char)
  | 0, _ => none
  | _ + 1, [] => none
  | fuel + 1, c :: rest =>
    if c = '\'' then
      match quotes '\'' (c :: rest) with
      | (own, true, rest) => some (own, rest)
      | (own, false, rest) => (multiLiteral? fuel rest).map fun r => (own ++ r.1, r.2)
    else match newline? (c :: rest) with
      | some rest => (multiLiteral? fuel rest).map fun r => ('\n' :: r.1, r.2)
      | none =>
        if isPlain c then (multiLiteral? fuel rest).map fun r => (c :: r.1, r.2) else none

def dropNewline (s : List Char) : List Char := (newline? s).getD s

def string? : List Char → Option (List Char × List Char)
  | '"' :: '"' :: '"' :: rest => multiBasic? (rest.length + 1) (dropNewline rest)
  | '"' :: rest => basic? rest.length rest
  | '\'' :: '\'' :: '\'' :: rest => multiLiteral? (rest.length + 1) (dropNewline rest)
  | '\'' :: rest => literal? rest
  | _ => none

def moreDigits? (isDigit : Char → Bool) : List Char → Option (List Char × List Char)
  | [] => some ([], [])
  | c :: rest =>
    if isDigit c then (moreDigits? isDigit rest).map fun r => (c :: r.1, r.2)
    else if c = '_' then
      match rest with
      | d :: rest =>
        if isDigit d then (moreDigits? isDigit rest).map fun r => (d :: r.1, r.2) else none
      | [] => none
    else some ([], c :: rest)

def digits? (isDigit : Char → Bool) : List Char → Option (List Char × List Char)
  | c :: rest =>
    if isDigit c then (moreDigits? isDigit rest).map fun r => (c :: r.1, r.2) else none
  | [] => none

def isHex (c : Char) : Bool := c.isDigit || ('a' ≤ c && c ≤ 'f') || ('A' ≤ c && c ≤ 'F')

def isOctal (c : Char) : Bool := '0' ≤ c && c ≤ '7'

def isBinary (c : Char) : Bool := c = '0' || c = '1'

def sign : List Char → Bool × List Char
  | '+' :: rest => (false, rest)
  | '-' :: rest => (true, rest)
  | s => (false, s)

def whole? : List Char → Option (List Char × List Char)
  | '0' :: rest => some (['0'], rest)
  | s => digits? Char.isDigit s

def digitOf (c : Char) : Nat :=
  if c.isDigit then c.toNat - '0'.toNat
  else if 'a' ≤ c then c.toNat - 'a'.toNat + 10
  else c.toNat - 'A'.toNat + 10

def numberOf (base : Nat) (digits : List Char) : Nat :=
  digits.foldl (fun n c => base * n + digitOf c) 0

def prefixed? (base : Nat) (isDigit : Char → Bool) (s : List Char) : Option (List Char) := do
  let (digits, rest) ← digits? isDigit s
  if numberOf base digits < Nat.pow 2 63 then some rest else none

def integer? : List Char → Option (List Char)
  | '0' :: 'x' :: rest => prefixed? 16 isHex rest
  | '0' :: 'o' :: rest => prefixed? 8 isOctal rest
  | '0' :: 'b' :: rest => prefixed? 2 isBinary rest
  | s => do
    let (negative, rest) := sign s
    let (digits, rest) ← whole? rest
    let n := numberOf 10 digits
    if n < Nat.pow 2 63 ∨ (negative ∧ n = Nat.pow 2 63) then some rest else none

def fraction? : List Char → Option (List Char × List Char)
  | '.' :: rest => digits? Char.isDigit rest
  | _ => none

def exponent? : List Char → Option (Bool × List Char × List Char)
  | c :: rest =>
    if c = 'e' ∨ c = 'E' then do
      let (negative, rest) := sign rest
      let (digits, rest) ← digits? Char.isDigit rest
      return (negative, digits, rest)
    else none
  | [] => none

def isFinite (significand : Nat) (e : Int) : Bool :=
  if significand = 0 ∨ e < -400 - (significand.log2 : Int) then true
  else if 400 < e then false
  else if e < 0 then (Binary64.ofRatio significand (Nat.pow 10 (-e).toNat)).isSome
  else (Binary64.ofRatio (significand * Nat.pow 10 e.toNat) 1).isSome

def special? (s : List Char) : Option (List Char) :=
  match (sign s).2 with
  | 'i' :: 'n' :: 'f' :: rest => some rest
  | 'n' :: 'a' :: 'n' :: rest => some rest
  | _ => none

def float? (s : List Char) : Option (List Char) := do
  let (negative, rest) := sign s
  let (whole, rest) ← whole? rest
  let (places, exponent, rest) ← match fraction? rest with
    | some (places, rest) =>
      match exponent? rest with
      | some (down, digits, rest) => some (places, (down, digits), rest)
      | none => some (places, (false, []), rest)
    | none => (exponent? rest).map fun r => ([], (r.1, r.2.1), r.2.2)
  let size : Int := numberOf 10 exponent.2
  let e := (if exponent.1 then -size else size) - places.length
  if negative || isFinite (numberOf 10 (whole ++ places)) e then some rest else none

def count? (n : Nat) (s : List Char) : Option (Nat × List Char) :=
  let digits := s.take n
  if digits.length = n ∧ digits.all Char.isDigit then some (Digits.value digits, s.drop n)
  else none

def mark? (c : Char) : List Char → Option (List Char)
  | d :: rest => if d = c then some rest else none
  | [] => none

def daysIn (year month : Nat) : Nat :=
  if month = 2 then
    if year % 4 = 0 ∧ (year % 100 ≠ 0 ∨ year % 400 = 0) then 29 else 28
  else if month = 4 ∨ month = 6 ∨ month = 9 ∨ month = 11 then 30
  else 31

def date? (s : List Char) : Option (List Char) := do
  let (year, s) ← count? 4 s
  let (month, s) ← count? 2 (← mark? '-' s)
  let (day, s) ← count? 2 (← mark? '-' s)
  if 1 ≤ month ∧ month ≤ 12 ∧ 1 ≤ day ∧ day ≤ daysIn year month then some s else none

def time? (s : List Char) : Option (List Char) := do
  let (hour, s) ← count? 2 s
  let (minute, s) ← count? 2 (← mark? ':' s)
  let (second, s) ← count? 2 (← mark? ':' s)
  if hour ≤ 23 ∧ minute ≤ 59 ∧ second ≤ 60 then
    match s with
    | '.' :: rest =>
      match Digits.run rest with
      | ([], _) => some s
      | (_, rest) => some rest
    | _ => some s
  else none

def offset? : List Char → Option (List Char)
  | [] => some []
  | c :: rest =>
    if c = 'Z' ∨ c = 'z' then some rest
    else if c = '+' ∨ c = '-' then do
      let (hour, s) ← count? 2 rest
      let (minute, s) ← count? 2 (← mark? ':' s)
      if hour ≤ 23 ∧ minute ≤ 59 then some s else none
    else some (c :: rest)

def dateTime? (s : List Char) : Option (List Char) :=
  match date? s with
  | some [] => some []
  | some (c :: rest) =>
    if c = 'T' ∨ c = 't' ∨ c = ' ' then
      match time? rest with
      | some rest => offset? rest
      | none => some (c :: rest)
    else some (c :: rest)
  | none => time? s

def number? (s : List Char) : Option (List Char) :=
  match float? s with
  | some rest => some rest
  | none =>
    match special? s with
    | some rest => some rest
    | none => integer? s

end ReactivePage.Toml
