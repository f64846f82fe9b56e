import PromptCanvas.Number.Shortest

/-! # Numbers in words and digits

`NumberStyle`: the choices that a written number leaves open.  `shortestText`
and `jsonText` write the fewest digits that read back; `compactText` writes at
most six digits. -/

set_option autoImplicit false

namespace PromptCanvas

/-- Positional notation holds for points from `leastPoint` to `greatestPoint`,
scientific notation outside; `keepsPoint` puts `.0` after a whole number. -/
structure NumberStyle where
  leastPoint : Int
  greatestPoint : Int
  keepsPoint : Bool
  nan : String
  infinity : String

namespace NumberStyle

/-- Positional from a ten-thousandth to below ten to the sixteenth. -/
def plain : NumberStyle := ⟨-3, 16, true, "nan", "inf"⟩

def json : NumberStyle := { plain with nan := "NaN", infinity := "Infinity" }

def compact : NumberStyle := ⟨-3, 6, false, "nan", "inf"⟩

end NumberStyle

namespace Decimal

section Layout

def digitText (ds : List Nat) : List Char := ds.map Nat.digitChar

def positional (style : NumberStyle) (d : Decimal) : List Char :=
  if d.point ≤ 0 then
    "0.".toList ++ List.replicate (-d.point).toNat '0' ++ digitText d.digits
  else if d.digits.length ≤ d.point.toNat then
    digitText d.digits ++ List.replicate (d.point.toNat - d.digits.length) '0' ++
      (if style.keepsPoint then ".0".toList else [])
  else
    digitText (d.digits.take d.point.toNat) ++ '.' :: digitText (d.digits.drop d.point.toNat)

def exponentText (e : Int) : List Char :=
  let ds := Nat.toDigits 10 e.natAbs
  (if e < 0 then '-' else '+') :: (List.replicate (2 - ds.length) '0' ++ ds)

def scientific (d : Decimal) : List Char :=
  digitText (d.digits.take 1) ++
    (match d.digits.drop 1 with
    | [] => []
    | rest => '.' :: digitText rest) ++
    'e' :: exponentText (d.point - 1)

def text (style : NumberStyle) (d : Decimal) : List Char :=
  if style.leastPoint ≤ d.point ∧ d.point ≤ style.greatestPoint then positional style d
  else scientific d

end Layout

end Decimal

namespace Binary64

section Text

/-- The text of a number whose nonzero magnitudes get the digits that `choose` gives. -/
def textWith (style : NumberStyle) (choose : Nat → Decimal) : Binary64 → List Char
  | .nan => style.nan.toList
  | .infinite negative => sign negative ++ style.infinity.toList
  | .finite negative m =>
      sign negative ++ (if m = 0 then (⟨[0], 1⟩ : Decimal) else choose m).text style
where
  sign (negative : Bool) : List Char := if negative then ['-'] else []

def shortestText : Binary64 → List Char := textWith .plain Decimal.shortest

def jsonText : Binary64 → List Char := textWith .json Decimal.shortest

def compactText : Binary64 → List Char := textWith .compact fun m => Decimal.rounded m 6

end Text

end Binary64

end PromptCanvas
