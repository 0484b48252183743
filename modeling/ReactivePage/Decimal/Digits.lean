namespace ReactivePage.Digits

def write (n : Nat) : List Char := Nat.toDigits 10 n

def value (digits : List Char) : Nat := Nat.ofDigitChars 10 digits 0

def value? (s : List Char) : Option Nat :=
  if s ≠ [] ∧ s.all Char.isDigit then some (value s) else none

def wordLimit : Nat := Nat.pow 2 64

def dropPlus : List Char → List Char
  | '+' :: rest => rest
  | s => s

def word? (s : List Char) : Option Nat :=
  match value? (dropPlus s) with
  | some n => if n < wordLimit then some n else none
  | none => none

def run (s : List Char) : List Char × List Char := s.span Char.isDigit

theorem value_write (n : Nat) : value (write n) = n := Nat.ofDigitChars_ten_toDigits

theorem value?_write (n : Nat) : value? (write n) = some n := by
  have hall : (write n).all Char.isDigit = true :=
    List.all_eq_true.2 fun _ h => Nat.isDigit_of_mem_toDigits (by decide) (by decide) h
  have hne : write n ≠ [] := Nat.toDigits_ne_nil
  rw [value?, if_pos ⟨hne, hall⟩, value_write]

end ReactivePage.Digits
