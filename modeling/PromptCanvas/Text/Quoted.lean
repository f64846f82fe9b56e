import PromptCanvas.Text.Hex
import PromptCanvas.Text.Printable
import PromptCanvas.Text.Surrogate

/-! # Quoted text

`quoted`: a text between quotation marks, with a backslash before the mark and
before a backslash, and an escape for every character that is not printable. -/

set_option autoImplicit false

namespace PromptCanvas.Text

section Marks

/-- Single marks, unless the text holds one and no double mark. -/
def quoteMark (cs : List Char) : Char :=
  if cs.contains '\'' && !cs.contains '"' then '"' else '\''

def escapedChar (mark c : Char) : List Char :=
  if c = mark || c = '\\' then ['\\', c]
  else if c = '\n' then ['\\', 'n']
  else if c = '\r' then ['\\', 'r']
  else if c = '\t' then ['\\', 't']
  else if isPrintable c then [c]
  else if c.toNat < 0x100 then '\\' :: 'x' :: hexText 2 c.toNat
  else if c.toNat < 0x10000 then '\\' :: 'u' :: hexText 4 c.toNat
  else
    match surrogate? c with
    | some unit => '\\' :: 'u' :: hexText 4 unit
    | none => '\\' :: 'U' :: hexText 8 c.toNat

def quoted (cs : List Char) : List Char :=
  let mark := quoteMark cs
  mark :: cs.flatMap (escapedChar mark) ++ [mark]

end Marks

end PromptCanvas.Text
