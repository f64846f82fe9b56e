import PromptCanvas.Text.Utf8
import PromptCanvas.Text.Wide

/-! # The encoding of a JSON text

A JSON text begins with an ASCII character, so the places of the zero bytes at
its start tell its encoding.  `Json.decode?` is the text of some bytes, or
nothing if they do not encode one. -/

set_option autoImplicit false

namespace PromptCanvas.Json

open Text (ByteOrder)

inductive Encoding where
  | utf8
  | utf16 (order : ByteOrder)
  | utf32 (order : ByteOrder)
  deriving DecidableEq, Repr

section Guessing

/-- Fewer than four bytes tell an encoding only if there are two of them. -/
def Encoding.guess : List UInt8 → Encoding
  | a :: b :: c :: d :: _ =>
      if a = 0 then (if b = 0 then .utf32 .highFirst else .utf16 .highFirst)
      else if b = 0 then (if c = 0 && d = 0 then .utf32 .lowFirst else .utf16 .lowFirst)
      else .utf8
  | [a, b] =>
      if a = 0 then .utf16 .highFirst else if b = 0 then .utf16 .lowFirst else .utf8
  | _ => .utf8

def withoutMark : List Char → List Char
  | '\ufeff' :: cs => cs
  | cs => cs

def decode? (bytes : List UInt8) : Option (List Char) :=
  match Encoding.guess bytes with
  | .utf8 => (Text.decodeUtf8? bytes).map fun s => withoutMark s.toList
  | .utf16 order => Text.decodeUtf16? order bytes
  | .utf32 order => Text.decodeUtf32? order bytes

end Guessing

end PromptCanvas.Json
