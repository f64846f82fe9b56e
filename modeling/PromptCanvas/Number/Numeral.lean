import PromptCanvas.Number.Binary64
import PromptCanvas.Text.Blank
import PromptCanvas.Text.Digit

/-! # Numerals

`Numeral.read`: a decimal numeral with an optional fraction and exponent, or a
word for infinity or NaN, as the nearest binary64 number.  `Numeral.readAny`
allows spaces around it, digits of every script and single underscores between
digits; `Numeral.readField` allows either spaces around it or single
underscores between other characters. -/

set_option autoImplicit false

namespace PromptCanvas.Numeral

section Scaling

/-- `digits * 10 ^ exponent`, rounded once.  Powers far outside the range are not computed. -/
def scaled (negative : Bool) (digits : Nat) (exponent : Int) : Binary64 :=
  let point := exponent + ((Nat.toDigits 10 digits).length : Int)
  if digits = 0 then .finite negative 0
  else if 310 < point then .infinite negative
  else if point < -330 then .finite negative 0
  else .ofRatio negative (digits * Nat.pow 10 exponent.toNat) (Nat.pow 10 (-exponent).toNat)

end Scaling

section Grammar

def natOf (ds : List Char) : Nat := ds.foldl (fun n d => n * 10 + (d.toNat - 48)) 0

def signOf : List Char → Bool × List Char
  | '-' :: cs => (true, cs)
  | '+' :: cs => (false, cs)
  | cs => (false, cs)

def exponentOf? : List Char → Option Int
  | [] => some 0
  | e :: cs =>
      let (negative, ds) := signOf cs
      if (e = 'e' || e = 'E') && !ds.isEmpty && ds.all Char.isDigit then
        some (if negative then -(natOf ds : Int) else natOf ds)
      else none

/-- Digits with an optional point, at least one digit in all, and an optional exponent. -/
def decimal? (negative : Bool) (cs : List Char) : Option Binary64 :=
  let (whole, rest) := cs.span Char.isDigit
  let (fraction, rest) :=
    match rest with
    | '.' :: after => after.span Char.isDigit
    | _ => ([], rest)
  if whole.isEmpty && fraction.isEmpty then none
  else
    match exponentOf? rest with
    | some e => some (scaled negative (natOf (whole ++ fraction)) (e - fraction.length))
    | none => none

def read (cs : List Char) : Option Binary64 :=
  let (negative, rest) := signOf cs
  let word := rest.map Char.toLower
  if word = "inf".toList || word = "infinity".toList then some (.infinite negative)
  else if word = "nan".toList then some .nan
  else decimal? negative rest

end Grammar

section Lenient

/-- A decimal digit of any script as an ASCII digit; no other character beyond ASCII is allowed. -/
def asciiDigit? (c : Char) : Option Char :=
  if c.toNat < 128 then some c else (Text.digitValue c).map Nat.digitChar

/-- The text without its underscores, if each of them stands between two digits. -/
def dropSeparators? : List Char → Option (List Char)
  | [] => some []
  | '_' :: _ => none
  | c :: '_' :: d :: rest =>
      if c.isDigit && d.isDigit then (dropSeparators? (d :: rest)).map (c :: ·) else none
  | c :: rest => (dropSeparators? rest).map (c :: ·)

def readAny (cs : List Char) : Option Binary64 :=
  match (Text.trimSpaces cs).mapM asciiDigit? with
  | some ascii => (dropSeparators? ascii).bind read
  | none => none

/-- Whether underscores stand neither at an end nor next to each other. -/
def singleSeparators (cs : List Char) : Bool :=
  cs.head? != some '_' && cs.getLast? != some '_' &&
    (cs.zip cs.tail).all fun pair => pair != ('_', '_')

def readField (cs : List Char) : Option Binary64 :=
  match read (Text.trimSpaces cs) with
  | some x => some x
  | none =>
      if singleSeparators cs then read (cs.filter (· != '_')) else none

end Lenient

end PromptCanvas.Numeral
