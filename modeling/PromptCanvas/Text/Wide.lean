import PromptCanvas.Text.Surrogate

/-! # UTF-16 and UTF-32

`decodeUtf16?` and `decodeUtf32?`: the text of some bytes in units of two or
four, with the first or the last byte of a unit as the highest.  Half a unit or
a unit beyond the last character encodes nothing; a surrogate without its
partner is kept as the character that stands for it. -/

set_option autoImplicit false

namespace PromptCanvas.Text

inductive ByteOrder where
  | highFirst
  | lowFirst
  deriving DecidableEq, Repr

section Units

def unitOf (order : ByteOrder) (bytes : List UInt8) : Nat :=
  let ordered :=
    match order with
    | .highFirst => bytes
    | .lowFirst => bytes.reverse
  ordered.foldl (fun n b => n * 256 + b.toNat) 0

def units16? (order : ByteOrder) : List UInt8 → Option (List Nat)
  | [] => some []
  | a :: b :: rest => (units16? order rest).map (unitOf order [a, b] :: ·)
  | _ => none

def units32? (order : ByteOrder) : List UInt8 → Option (List Nat)
  | [] => some []
  | a :: b :: c :: d :: rest => (units32? order rest).map (unitOf order [a, b, c, d] :: ·)
  | _ => none

end Units

section Characters

def charOfValue (n : Nat) : Char := if isSurrogate n then standIn n else Char.ofNat n

/-- Two surrogates that follow each other make one character. -/
def charsOfUnits : List Nat → List Char
  | [] => []
  | [unit] => [charOfValue unit]
  | unit :: next :: rest =>
      if isHighSurrogate unit && isLowSurrogate next then
        Char.ofNat (0x10000 + (unit - 0xd800) * 0x400 + (next - 0xdc00)) :: charsOfUnits rest
      else charOfValue unit :: charsOfUnits (next :: rest)

end Characters

section Decoding

def decodeUtf16? (order : ByteOrder) (bytes : List UInt8) : Option (List Char) :=
  (units16? order bytes).map charsOfUnits

def decodeUtf32? (order : ByteOrder) (bytes : List UInt8) : Option (List Char) :=
  match units32? order bytes with
  | some values => if values.all (· < 0x110000) then some (values.map charOfValue) else none
  | none => none

end Decoding

end PromptCanvas.Text
