import PromptCanvas.Json.Printer
import PromptCanvas.Text.Quoted

/-! # Values as plain text

`Json.display`: the text that a value of any kind leaves where a text is
wanted.  A string stands for itself; inside an array or an object it is
quoted. -/

set_option autoImplicit false

namespace PromptCanvas.Json

section Quoted

mutual

def quotedText : Json → List Char
  | .null => "None".toList
  | .bool true => "True".toList
  | .bool false => "False".toList
  | .int n => intText n
  | .float x => x.shortestText
  | .string s => Text.quoted s.toList
  | .array [] => ['[', ']']
  | .array (item :: items) => '[' :: quotedText item ++ quotedItems items ++ [']']
  | .object [] => ['\x7b', '\x7d']
  | .object ((key, value) :: fields) =>
      '\x7b' :: Text.quoted key.toList ++ [':', ' '] ++ quotedText value ++
        quotedFields fields ++ ['\x7d']

def quotedItems : List Json → List Char
  | [] => []
  | item :: items => [',', ' '] ++ quotedText item ++ quotedItems items

def quotedFields : List (String × Json) → List Char
  | [] => []
  | (key, value) :: fields =>
      [',', ' '] ++ Text.quoted key.toList ++ [':', ' '] ++ quotedText value ++ quotedFields fields

end

end Quoted

def quotedString (j : Json) : String := String.ofList (quotedText j)

def display (j : Json) : String :=
  match j with
  | .string s => s
  | _ => j.quotedString

end PromptCanvas.Json
