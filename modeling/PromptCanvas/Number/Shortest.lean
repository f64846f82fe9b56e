import PromptCanvas.Number.Binary64

/-! # Decimal digits of a number

`Decimal`: decimal digits with the place of their point.  `Decimal.shortest`
is the shortest decimal that reads back to a given magnitude, of those the
nearest; `Decimal.rounded` is the magnitude to a given count of digits. -/

set_option autoImplicit false

namespace PromptCanvas

/-- The digits `d₁d₂…` stand for `0.d₁d₂… * 10 ^ point`. -/
structure Decimal where
  digits : List Nat
  point : Int
  deriving DecidableEq, Repr

namespace Decimal

section Digits

def digitsOf (n : Nat) : List Nat := (Nat.toDigits 10 n).map fun c => c.toNat - 48

def dropTrailingZeros (ds : List Nat) : List Nat := (ds.reverse.dropWhile (· == 0)).reverse

/-- The `point` at which the digits of a nonzero magnitude begin. -/
def pointOf (magnitude : Nat) : Int :=
  ((Nat.toDigits 10 (magnitude * Nat.pow 10 400 / Binary64.unit)).length : Int) - 400

/-- A magnitude as a fraction whose unit is the `n`th digit after `point`. -/
def onGrid (magnitude : Nat) (n : Nat) (point : Int) : Nat × Nat :=
  (magnitude * Nat.pow 10 (n - point).toNat, Binary64.unit * Nat.pow 10 (point - n).toNat)

/-- The digits of a whole number of units on the grid of `n` digits. -/
def ofGrid (units n : Nat) (point : Int) : Decimal :=
  let ds := digitsOf units
  { digits := dropTrailingZeros ds, point := point + ((ds.length : Int) - (n : Int)) }

end Digits

/-- The magnitude to `n` significant digits, a tie to the even digit. -/
def rounded (magnitude n : Nat) : Decimal :=
  let point := pointOf magnitude
  let (num, den) := onGrid magnitude n point
  ofGrid (Binary64.roundDiv num den) n point

section Shortest

/-- Whether `units` on the grid lies where magnitudes round to `magnitude`; the
ends of that interval belong to it when the last binary digit is even. -/
def readsBack (magnitude num den units : Nat) : Bool :=
  let e := Binary64.spacing magnitude
  let ulp := Nat.pow 2 e
  let significand := magnitude / ulp
  let below := if significand = Nat.pow 2 52 ∧ 0 < e then ulp else 2 * ulp
  let scale := num / magnitude
  let low := (4 * magnitude - below) * scale
  let high := (4 * magnitude + 2 * ulp) * scale
  let value := 4 * units * den
  if significand % 2 = 0 then decide (low ≤ value ∧ value ≤ high)
  else decide (low < value ∧ value < high)

/-- Of the two neighbours of a magnitude on a grid the one that reads back, of two the nearer. -/
def nearestOnGrid (magnitude num den : Nat) : Option Nat :=
  let q := num / den
  match readsBack magnitude num den q, readsBack magnitude num den (q + 1) with
  | true, true => some (Binary64.roundDiv num den)
  | true, false => some q
  | false, true => some (q + 1)
  | false, false => none

/-- Tries grids of ever more digits; seventeen digits always read back. -/
def shortestFrom (magnitude : Nat) (point : Int) : Nat → Nat → Decimal
  | 0, n =>
      let (num, den) := onGrid magnitude n point
      ofGrid (Binary64.roundDiv num den) n point
  | more + 1, n =>
      let (num, den) := onGrid magnitude n point
      match nearestOnGrid magnitude num den with
      | some units => ofGrid units n point
      | none => shortestFrom magnitude point more (n + 1)

/-- The fewest digits that read back to a nonzero magnitude, of those the nearest. -/
def shortest (magnitude : Nat) : Decimal := shortestFrom magnitude (pointOf magnitude) 16 1

end Shortest

end Decimal

end PromptCanvas
