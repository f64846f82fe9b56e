import PromptCanvas.Json.Basic
import PromptCanvas.Number.Spelling
import PromptCanvas.Text.Hex

/-! # Writing JSON

`Json.render`: a value as JSON text in a given style, on one line or with
every item and field on a line of its own. -/

set_option autoImplicit false

namespace PromptCanvas.Json

/-- `indent` is the width of one level, none for a single line; `asciiOnly` escapes
every other character. -/
structure Style where
  indent : Option Nat
  asciiOnly : Bool

def Style.document : Style := ⟨some 2, false⟩

def Style.line : Style := ⟨none, true⟩

section Strings

def unicodeEscape (unit : Nat) : List Char := '\\' :: 'u' :: Text.hexText 4 unit

/-- A character beyond the first plane is escaped as two surrogates. -/
def escapedUnits (n : Nat) : List Char :=
  if n < 0x10000 then unicodeEscape n
  else
    unicodeEscape (0xd800 + (n - 0x10000) / 0x400) ++ unicodeEscape (0xdc00 + (n - 0x10000) % 0x400)

def escapeChar (asciiOnly : Bool) (c : Char) : List Char :=
  if c = '"' then ['\\', '"']
  else if c = '\\' then ['\\', '\\']
  else if c = '\n' then ['\\', 'n']
  else if c = '\r' then ['\\', 'r']
  else if c = '\t' then ['\\', 't']
  else if c = '\x08' then ['\\', 'b']
  else if c = '\x0c' then ['\\', 'f']
  else if c.toNat < 0x20 || (asciiOnly && 0x7e < c.toNat) then escapedUnits c.toNat
  else [c]

def stringText (asciiOnly : Bool) (s : String) : List Char :=
  '"' :: s.toList.flatMap (escapeChar asciiOnly) ++ ['"']

end Strings

section Values

def intText (n : Int) : List Char :=
  if n < 0 then '-' :: Nat.toDigits 10 n.natAbs else Nat.toDigits 10 n.natAbs

def lineBreak (style : Style) (depth : Nat) : List Char :=
  match style.indent with
  | none => []
  | some width => '\n' :: List.replicate (width * depth) ' '

def separator (style : Style) (depth : Nat) : List Char :=
  match style.indent with
  | none => [',', ' ']
  | some _ => ',' :: lineBreak style depth

mutual

def textAt (style : Style) (depth : Nat) : Json → List Char
  | .null => "null".toList
  | .bool true => "true".toList
  | .bool false => "false".toList
  | .int n => intText n
  | .float x => x.jsonText
  | .string s => stringText style.asciiOnly s
  | .array [] => ['[', ']']
  | .array (item :: items) =>
      '[' :: lineBreak style (depth + 1) ++ textAt style (depth + 1) item ++
        itemsText style (depth + 1) items ++ lineBreak style depth ++ [']']
  | .object [] => ['\x7b', '\x7d']
  | .object ((key, value) :: fields) =>
      '\x7b' :: lineBreak style (depth + 1) ++ stringText style.asciiOnly key ++ [':', ' '] ++
        textAt style (depth + 1) value ++ fieldsText style (depth + 1) fields ++
        lineBreak style depth ++ ['\x7d']

def itemsText (style : Style) (depth : Nat) : List Json → List Char
  | [] => []
  | item :: items => separator style depth ++ textAt style depth item ++ itemsText style depth items

def fieldsText (style : Style) (depth : Nat) : List (String × Json) → List Char
  | [] => []
  | (key, value) :: fields =>
      separator style depth ++ stringText style.asciiOnly key ++ [':', ' '] ++
        textAt style depth value ++ fieldsText style depth fields

end

def render (style : Style) (j : Json) : String := String.ofList (textAt style 0 j)

end Values

end PromptCanvas.Json
