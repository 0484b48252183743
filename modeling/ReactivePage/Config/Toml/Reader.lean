import ReactivePage.Config.Toml.Basic
import ReactivePage.Config.Toml.Scalar

namespace ReactivePage.Toml

def isBare (c : Char) : Bool := c.isAlphanum || c = '_' || c = '-'

def keyPart? : List Char → Option (String × List Char)
  | '"' :: rest => (basic? rest.length rest).map fun r => (String.ofList r.1, r.2)
  | '\'' :: rest => (literal? rest).map fun r => (String.ofList r.1, r.2)
  | s =>
    match s.span isBare with
    | ([], _) => none
    | (part, rest) => some (String.ofList part, rest)

def keyParts? : Nat → List Char → Option (List String × List Char)
  | 0, _ => none
  | fuel + 1, s => do
    let (part, rest) ← keyPart? (skipSpace s)
    match skipSpace rest with
    | '.' :: rest =>
      let (parts, rest) ← keyParts? fuel rest
      return (part :: parts, rest)
    | rest => return ([part], rest)

def key? (s : List Char) : Option (List String × String × List Char) := do
  let (parts, rest) ← keyParts? (s.length + 1) s
  if depthLimit ≤ parts.length then none
  else
    let last ← parts.getLast?
    return (parts.dropLast, last, rest)

def comment? : List Char → Option (List Char)
  | '#' :: rest => some (rest.dropWhile isPlain)
  | _ => none

/-- The text behind white space, comments and line breaks. A comment needs its line break. Fuel
is the length of the text. -/
def skipLines : Nat → List Char → List Char
  | 0, s => s
  | fuel + 1, s =>
    let s := skipSpace s
    match newline? ((comment? s).getD s) with
    | some rest => skipLines fuel rest
    | none => s

def lineEnd? (s : List Char) : Option (List Char) :=
  let s := skipSpace s
  match (comment? s).getD s with
  | [] => some []
  | s => newline? s

def word? : List Char → List Char → Option (List Char)
  | [], s => some s
  | c :: word, d :: s => if c = d then word? word s else none
  | _ :: _, [] => none

mutual

def value? : Nat → Nat → List Char → Option (Toml × List Char)
  | 0, _, _ => none
  | fuel + 1, depth, s =>
    match s with
    | [] => none
    | c :: rest =>
      if c = '"' ∨ c = '\'' then (string? s).map fun r => (text (String.ofList r.1), r.2)
      else if c = '[' then
        if depthLimit ≤ depth + 1 then none
        else do
          let (items, rest) ← items? fuel (depth + 1) rest
          return (list items, rest)
      else if c = '\x7b' then
        if depthLimit ≤ depth + 1 then none
        else match skipSpace rest with
          | '\x7d' :: rest => some (table .inline [], rest)
          | rest => do
            let (entries, rest) ← members? fuel (depth + 1) [] rest
            return (table .inline entries, rest)
      else if c = 't' then (word? ['t', 'r', 'u', 'e'] s).map fun rest => (flag true, rest)
      else if c = 'f' then (word? ['f', 'a', 'l', 's', 'e'] s).map fun rest => (flag false, rest)
      else match dateTime? s with
        | some rest => some (date, rest)
        | none => (number? s).map fun rest => (number, rest)

def items? : Nat → Nat → List Char → Option (List Toml × List Char)
  | 0, _, _ => none
  | fuel + 1, depth, s =>
    match skipLines s.length s with
    | ']' :: rest => some ([], rest)
    | s => do
      let (item, rest) ← value? fuel depth s
      match skipLines rest.length rest with
      | ',' :: rest =>
        let (items, rest) ← items? fuel depth rest
        return (item :: items, rest)
      | ']' :: rest => return ([item], rest)
      | _ => none

def members? : Nat → Nat → Entries → List Char → Option (Entries × List Char)
  | 0, _, _, _ => none
  | fuel + 1, depth, entries, s => do
    let (path, key, rest) ← key? s
    let rest ← mark? '=' rest
    let (value, rest) ← value? fuel depth (skipSpace rest)
    let entries ← addEntry entries path key value
    match skipSpace rest with
    | ',' :: rest => members? fuel depth entries rest
    | '\x7d' :: rest => return (entries, rest)
    | _ => none

end

structure Draft where
  entries : Entries
  current : List String

def line? (d : Draft) (s : List Char) : Option (Draft × List Char) :=
  match s with
  | '[' :: '[' :: rest => do
    let (path, key, rest) ← key? rest
    let rest ← lineEnd? (← mark? ']' (← mark? ']' rest))
    return (⟨← openNext d.entries path key, path ++ [key]⟩, rest)
  | '[' :: rest => do
    let (path, key, rest) ← key? rest
    let rest ← lineEnd? (← mark? ']' rest)
    return (⟨← openTable d.entries path key, path ++ [key]⟩, rest)
  | s =>
    match lineEnd? s with
    | some rest => some (d, rest)
    | none => do
      let (path, key, rest) ← key? s
      let rest ← mark? '=' rest
      let (value, rest) ← value? (2 * rest.length + 2) 0 (skipSpace rest)
      let rest ← lineEnd? rest
      return ({ d with entries := ← addEntryAt d.entries d.current path key value }, rest)

def lines? : Nat → Draft → List Char → Option Entries
  | _, d, [] => some d.entries
  | 0, _, _ => none
  | fuel + 1, d, s =>
    match skipSpace s with
    | [] => some d.entries
    | s => do
      let (d, rest) ← line? d s
      lines? fuel d rest

def dropMark : List Char → List Char
  | c :: rest => if c.toNat = 0xFEFF then rest else c :: rest
  | [] => []

def read? (text : String) : Option Entries :=
  let s := dropMark text.toList
  lines? s.length ⟨[], []⟩ s

end ReactivePage.Toml
