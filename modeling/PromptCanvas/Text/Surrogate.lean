/-! # Surrogates

A surrogate is half of a character in UTF-16 and no character by itself.  An escape in a
JSON string can name one without its partner all the same, and it stays in the text until
that is to be encoded.  In its place stands a character of the last private plane
(`standIn`), which no other text is expected to hold. -/

set_option autoImplicit false

namespace PromptCanvas.Text

section Units

def isHighSurrogate (unit : Nat) : Bool := 0xd800 ≤ unit && unit < 0xdc00

def isLowSurrogate (unit : Nat) : Bool := 0xdc00 ≤ unit && unit < 0xe000

def isSurrogate (unit : Nat) : Bool := isHighSurrogate unit || isLowSurrogate unit

end Units

section Characters

def standIn (unit : Nat) : Char := Char.ofNat (0x100000 + unit)

def surrogate? (c : Char) : Option Nat :=
  let unit := c.toNat - 0x100000
  if isSurrogate unit then some unit else none

def isEncodable (cs : List Char) : Bool := cs.all fun c => (surrogate? c).isNone

end Characters

end PromptCanvas.Text
