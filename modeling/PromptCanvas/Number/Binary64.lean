/-! # Binary64 numbers

`Binary64`: the numbers of the IEEE 754 binary64 format, a finite one as a
sign and a natural multiple of the least subnormal `2 ^ (-1074)`.
`Binary64.ofRatio` rounds an exact quotient to the nearest number, a tie to
the even one; `Binary64.le` orders the numbers; `Binary64.word` is the bit
pattern of interchange. -/

set_option autoImplicit false

namespace PromptCanvas

/-- A finite number is `magnitude * 2 ^ (-1074)` with its sign, so zero has two signs. -/
inductive Binary64 where
  | nan
  | infinite (negative : Bool)
  | finite (negative : Bool) (magnitude : Nat)
  deriving DecidableEq, Repr

namespace Binary64

section Rounding

def bitLength (n : Nat) : Nat := if n = 0 then 0 else n.log2 + 1

/-- The quotient rounded to the nearest integer, a tie to the even one. -/
def roundDiv (num den : Nat) : Nat :=
  let q := num / den
  let r := num % den
  if 2 * r < den then q
  else if den < 2 * r then q + 1
  else q + q % 2

def unit : Nat := Nat.pow 2 1074

def overflow : Nat := Nat.pow 2 2098

/-- The power of two by which magnitudes near `t` are spaced: 53 binary digits are kept. -/
def spacing (t : Nat) : Nat := bitLength t - 53

/-- The number nearest to `num / den`, with the given sign. -/
def ofRatio (negative : Bool) (num den : Nat) : Binary64 :=
  let scaled := num * unit
  let e := spacing (scaled / den)
  let magnitude := roundDiv scaled (den * Nat.pow 2 e) * Nat.pow 2 e
  if overflow ≤ magnitude then .infinite negative else .finite negative magnitude

def ofInt (n : Int) : Binary64 := ofRatio (decide (n < 0)) n.natAbs 1

def ofNat (n : Nat) : Binary64 := ofInt n

def zero : Binary64 := .finite false 0

end Rounding

section Values

/-- The value as a multiple of the least subnormal, infinities beyond every finite number. -/
def key : Binary64 → Int
  | .nan => 0
  | .infinite true => -(overflow : Int)
  | .infinite false => (overflow : Int)
  | .finite true m => -(m : Int)
  | .finite false m => (m : Int)

def isNan : Binary64 → Bool
  | .nan => true
  | _ => false

/-- Equality of values: the two zeros are equal, and NaN is not equal to itself. -/
def eq (a b : Binary64) : Bool := !a.isNan && !b.isNan && decide (a.key = b.key)

def le (a b : Binary64) : Bool := decide (a.key ≤ b.key)

def truncate : Binary64 → Option Int
  | .finite true m => some (-((m / unit : Nat) : Int))
  | .finite false m => some ((m / unit : Nat) : Int)
  | _ => none

def toInt (a : Binary64) : Option Int :=
  match a with
  | .finite _ m => if m % unit = 0 then a.truncate else none
  | _ => none

/-- The interchange word: sign, eleven exponent bits, fifty-two fraction bits. -/
def word : Binary64 → Nat
  | .nan => 0x7ff8000000000000
  | .infinite negative => 0x7ff0000000000000 + sign negative
  | .finite negative m =>
      let e := spacing m
      e * Nat.pow 2 52 + m / Nat.pow 2 e + sign negative
where
  sign (negative : Bool) : Nat := if negative then Nat.pow 2 63 else 0

end Values

end Binary64

end PromptCanvas
