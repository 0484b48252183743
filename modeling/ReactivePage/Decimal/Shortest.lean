import ReactivePage.Decimal.Binary64

namespace ReactivePage

structure Decimal where
  digits : Nat
  exponent : Int
  deriving DecidableEq

namespace Decimal

open Binary64

def digitCount (n : Nat) : Nat := if n = 0 then 0 else (Nat.toDigits 10 n).length

def floorLog10 (num den : Nat) : Int :=
  if den ≤ num then (digitCount (num / den) : Int) - 1
  else -(digitCount ((den - 1) / num) : Int)

def scaleTen (num den : Nat) (e : Int) : Nat × Nat :=
  if e < 0 then (num * Nat.pow 10 (-e).toNat, den) else (num, den * Nat.pow 10 e.toNat)

/-- The ends of the rounding interval of `x`, over the denominator of the second component. -/
def interval (x : Binary64) : (Nat × Nat) × Nat :=
  let narrow := x.mantissa = Nat.pow 2 mantissaBits ∧ minExponent < x.exponent
  let (num, den) := x.ratio
  let unit := num / x.mantissa
  ((4 * num - (if narrow then unit else 2 * unit), 4 * num + 2 * unit), 4 * den)

def readsBack (x : Binary64) (d : Nat) (e : Int) : Bool :=
  let ((low, high), den) := interval x
  let (n, k) := if e < 0 then (d, Nat.pow 10 (-e).toNat) else (d * Nat.pow 10 e.toNat, 1)
  if x.mantissa % 2 = 0 then low * k ≤ n * den && n * den ≤ high * k
  else low * k < n * den && n * den < high * k

def onGrid? (x : Binary64) (e : Int) : Option Nat :=
  let (num, den) := x.ratio
  let (n, d) := scaleTen num den e
  let below := n / d
  match readsBack x below e, readsBack x (below + 1) e with
  | true, true => some (roundDiv n d)
  | true, false => some below
  | false, true => some (below + 1)
  | false, false => none

def search (x : Binary64) : Nat → Int → Option Decimal
  | 0, _ => none
  | fuel + 1, e =>
    match onGrid? x e with
    | some d => some ⟨d, e⟩
    | none => search x fuel (e - 1)

/-- Seventeen digits always read back, so the search among them finds one. -/
def shortest (x : Binary64) : Decimal :=
  let (num, den) := x.ratio
  let top := floorLog10 num den
  (search x 17 top).getD ⟨0, 0⟩

def stripZeros : Nat → Decimal → Decimal
  | 0, d => d
  | fuel + 1, d =>
    if d.digits ≠ 0 ∧ d.digits % 10 = 0 then stripZeros fuel ⟨d.digits / 10, d.exponent + 1⟩
    else d

end Decimal

end ReactivePage
