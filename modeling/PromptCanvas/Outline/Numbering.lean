import PromptCanvas.Outline.Item
import PromptCanvas.Text.Blank
import PromptCanvas.Text.Digit
import PromptCanvas.Text.Lines

/-! # Numbered lists

`Outline.read`: a block of text as list entries, a line each; a line that begins
with a dotted number has as many levels as the number has parts.
`Outline.render`: the entries as lines that begin with their numbers, blank
entries counted and not shown. -/

set_option autoImplicit false

namespace PromptCanvas.Outline

section Numbers

/-- The longest dotted number at the start of a text, and the rest; `inGroup`
says whether a digit came just before. -/
def spanNumber (inGroup : Bool) : List Char → List Char × List Char
  | [] => ([], [])
  | c :: rest =>
      if Text.isDigit c then
        let (number, rest) := spanNumber true rest
        (c :: number, rest)
      else if c = '.' && inGroup && rest.head?.any Text.isDigit then
        let (number, rest) := spanNumber false rest
        (c :: number, rest)
      else ([], c :: rest)

/-- A trimmed line that begins with a number, at most one closing mark, and blanks. -/
def numbered? (closing : List Char) (line : List Char) : Option (List Char × List Char) :=
  match spanNumber false line with
  | ([], _) => none
  | (number, rest) =>
      let rest :=
        match rest with
        | c :: more => if closing.contains c then more else rest
        | [] => []
      match rest.span Text.isBlank with
      | ([], _) => none
      | (_, []) => none
      | (_, text) => some (number, text)

def depthOf (number : List Char) : Nat := number.count '.' + 1

end Numbers

section Reading

def entryOfLine (line : List Char) : Entry :=
  match numbered? ['.'] line with
  | some (number, text) => ⟨String.ofList text, .ofInt (depthOf number)⟩
  | none => ⟨String.ofList line, .one⟩

/-- The lines of a text without the blanks around them, blank lines left out. -/
def trimmedLines (cs : List Char) : List (List Char) :=
  ((Text.lines cs).map Text.trim).filter fun line => !line.isEmpty

/-- A list is never empty: a blank text is one blank entry. -/
def read (text : String) : List Entry :=
  match (trimmedLines text.toList).map entryOfLine with
  | [] => [Entry.blank]
  | entries => entries

/-- The items of a list, or of the fallback text if there are none. -/
def drafts (items : List Json) (fallback : String) : List Draft :=
  match items with
  | [] => (read fallback).map Entry.draft
  | _ => items.map Draft.ofJson

end Reading

section Rendering

/-- How many entries of each level there are since the last one of a lower level. -/
structure Counters where
  first : Nat
  second : Nat
  third : Nat
  deriving DecidableEq, Repr

namespace Counters

def start : Counters := ⟨0, 0, 0⟩

def advance (c : Counters) : Level → Counters
  | .one => ⟨c.first + 1, 0, 0⟩
  | .two => ⟨c.first, c.second + 1, 0⟩
  | .three => ⟨c.first, c.second, c.third + 1⟩

def token (c : Counters) : Level → List Nat
  | .one => [c.first]
  | .two => [c.first, c.second]
  | .three => [c.first, c.second, c.third]

end Counters

def numberFrom (c : Counters) : List Entry → List (List Nat × Entry)
  | [] => []
  | e :: es =>
      let c := c.advance e.level
      (c.token e.level, e) :: numberFrom c es

def tokenText (token : List Nat) : List Char :=
  List.intercalate ['.'] (token.map (Nat.toDigits 10))

def lineText (numbered : List Nat × Entry) : List Char :=
  tokenText numbered.1 ++ ' ' :: Text.trim numbered.2.text.toList

def shownLines (entries : List Entry) : List (List Char) :=
  ((numberFrom .start entries).filter fun n => !Text.isBlankString n.2.text).map lineText

def render (entries : List Entry) : String :=
  String.ofList (List.intercalate ['\n'] (shownLines entries))

end Rendering

end PromptCanvas.Outline
