/-! # UTF-8

`decodeUtf8?`: the text that some bytes encode, if they encode one.
`decodeUtf8Lossy`: a text for any bytes, with a replacement character for every
part that begins no character or breaks one off. -/

set_option autoImplicit false

namespace PromptCanvas.Text

section Strict

def decodeUtf8? (bytes : List UInt8) : Option String :=
  String.fromUTF8? (ByteArray.mk bytes.toArray)

def encodeUtf8 (s : String) : List UInt8 := s.toUTF8.data.toList

end Strict

section Lossy

/-- A character that was begun: how many bytes it still needs, between which
bounds the next one lies, and the value of those before it. -/
structure Begun where
  needed : Nat
  low : Nat
  high : Nat
  value : Nat
  deriving DecidableEq, Repr

def replacement : Char := '\ufffd'

/-- What a byte between characters comes to: a character, a begun one, or neither. -/
def beginChar (b : Nat) : List Char × Option Begun :=
  if b < 0x80 then ([Char.ofNat b], none)
  else if 0xc2 ≤ b && b < 0xe0 then ([], some ⟨1, 0x80, 0xbf, b - 0xc0⟩)
  else if 0xe0 ≤ b && b < 0xf0 then
    ([], some ⟨2, if b = 0xe0 then 0xa0 else 0x80, if b = 0xed then 0x9f else 0xbf, b - 0xe0⟩)
  else if 0xf0 ≤ b && b < 0xf5 then
    ([], some ⟨3, if b = 0xf0 then 0x90 else 0x80, if b = 0xf4 then 0x8f else 0xbf, b - 0xf0⟩)
  else ([replacement], none)

/-- A byte that cannot go on with a begun character stands between characters. -/
def continueChar (s : Begun) (b : Nat) : List Char × Option Begun :=
  if s.low ≤ b && b ≤ s.high then
    let value := s.value * 64 + (b - 0x80)
    if s.needed ≤ 1 then ([Char.ofNat value], none)
    else ([], some ⟨s.needed - 1, 0x80, 0xbf, value⟩)
  else
    let (out, next) := beginChar b
    (replacement :: out, next)

def lossyFrom (begun : Option Begun) : List UInt8 → List Char
  | [] => if begun.isSome then [replacement] else []
  | b :: rest =>
      let (out, next) :=
        match begun with
        | none => beginChar b.toNat
        | some s => continueChar s b.toNat
      out ++ lossyFrom next rest

def decodeUtf8Lossy (bytes : List UInt8) : List Char := lossyFrom none bytes

end Lossy

end PromptCanvas.Text
