import PromptCanvas.Json.Reader
import PromptCanvas.Text.Blank
import PromptCanvas.Text.Caseless
import PromptCanvas.Text.Lines

/-! # JSON documents in free text

`Document.parse`: the value of a JSON document that may stand in a code fence,
hold control characters, or have backslashes that begin no escape.
`Document.extract`: the document of a text that may hold other prose around it.
A text in which a reading comes upon an integer that is too long is not tried in any
other way.  `Document.withoutThoughts` leaves out what a model says to itself. -/

set_option autoImplicit false

namespace PromptCanvas.Document

section Fences

def fence : List Char := List.replicate 3 '\x60'

def jsonWord : List Char := "json".toList

/-- What follows the word that marks a fenced document, if it is there. -/
def dropTag (cs : List Char) : List Char :=
  match Text.word? jsonWord cs with
  | some (_, rest) => rest
  | none => cs

def beforeFence? (cs : List Char) : Option (List Char) :=
  (fence.isPrefixOf? cs.reverse).map List.reverse

/-- The body of a trimmed text that is one code fence as a whole. -/
def fencedBody? (cs : List Char) : Option (List Char) :=
  match fence.isPrefixOf? cs with
  | some rest => (beforeFence? (dropTag rest)).map Text.trim
  | none => none

def withoutFence (cs : List Char) : List Char :=
  let cs := Text.trim cs
  (fencedBody? cs).getD cs

/-- The body of the first fenced document inside a text. -/
def innerFence? : List Char → Option (List Char)
  | [] => none
  | c :: cs =>
      match (fence.isPrefixOf? (c :: cs)).bind fun rest => Text.word? jsonWord rest with
      | some (_, rest) => (Text.cut? fence rest).map fun found => Text.trim found.1
      | none => innerFence? cs

/-- The text from the first opening brace to the last closing brace after it. -/
def braceSpan? (cs : List Char) : Option (List Char) :=
  match cs.dropWhile (· != '\x7b') with
  | [] => none
  | c :: rest =>
      match Text.dropEndWhile (· != '\x7d') rest with
      | [] => none
      | inner => some (c :: inner)

end Fences

section Repair

def isEscapable (c : Char) : Bool := "\"\\/bfnrtu".toList.contains c

/-- Doubles a backslash before a character that makes no escape with it. -/
def repairEscapes : List Char → List Char
  | [] => []
  | [c] => [c]
  | c :: d :: rest =>
      if c = '\\' && !isEscapable d then '\\' :: '\\' :: d :: repairEscapes rest
      else c :: repairEscapes (d :: rest)

def escapeSeparators (cs : List Char) : List Char :=
  cs.flatMap fun c =>
    if c = '\u2028' then "\\u2028".toList
    else if c = '\u2029' then "\\u2029".toList
    else [c]

/-- The texts to read, the text as it is before the text with repaired escapes. -/
def candidates (cs : List Char) : List (List Char) :=
  let plain := Text.trim cs
  let repaired := Text.trim (repairEscapes cs)
  (if plain.isEmpty then [] else [plain]) ++
    (if repaired.isEmpty || repaired = plain then [] else [repaired])

end Repair

section Parsing

/-- Another reading, unless the first came to a value or to an integer that is too long. -/
def orElse (first : Except Json.Fault Json) (next : Json.Fault → Except Json.Fault Json) :
    Except Json.Fault Json :=
  match first with
  | .ok v => .ok v
  | .error fault => if fault.overlong?.isSome then .error fault else next fault

/-- Strictly if possible, else with control characters in strings. -/
def readEither (cs : List Char) : Except Json.Fault Json :=
  orElse (Json.read true cs) fun _ => Json.read false cs

/-- The value of the first text that can be read, or the fault of the last. -/
def readFirst (fault : Json.Fault) : List (List Char) → Except Json.Fault Json
  | [] => .error fault
  | cs :: rest => orElse (readEither cs) fun fault => readFirst fault rest

def parse (cs : List Char) : Except Json.Fault Json :=
  let body := withoutFence cs
  if Text.isBlankText body then .error (.atStart .emptyPayload)
  else
    readFirst (.atStart .unparsedPayload)
      (candidates (escapeSeparators (body.dropWhile (· == '\ufeff'))))

end Parsing

section Thoughts

def thoughtKeys : List String :=
  ["thought", "thoughts", "thought_signature", "thought-signature", "thoughtSignature"]

mutual

def withoutThoughts : Json → Json
  | .array items => .array (itemsWithoutThoughts items)
  | .object fields => .object (fieldsWithoutThoughts fields)
  | j => j

def itemsWithoutThoughts : List Json → List Json
  | [] => []
  | item :: items => withoutThoughts item :: itemsWithoutThoughts items

def fieldsWithoutThoughts : List (String × Json) → List (String × Json)
  | [] => []
  | (key, value) :: fields =>
      if thoughtKeys.contains key then fieldsWithoutThoughts fields
      else (key, withoutThoughts value) :: fieldsWithoutThoughts fields

end

def parseWith (dropThoughts : Bool) (cs : List Char) : Except Json.Fault Json :=
  match parse cs with
  | .ok v => .ok (if dropThoughts then withoutThoughts v else v)
  | .error fault => .error fault

end Thoughts

section Extraction

/-- What a reading comes to: a value, nothing, or an integer that is too long. -/
def outcome : Except Json.Fault Json → Except Json.Overlong (Option Json)
  | .ok v => .ok (some v)
  | .error fault =>
      match fault.overlong? with
      | some n => .error n
      | none => .ok none

/-- The whole text as a document, else the first fenced document in it, or if
there is none the widest text in braces. -/
def extract (dropThoughts : Bool) (cs : List Char) : Except Json.Overlong (Option Json) :=
  if Text.isBlankText cs then .ok none
  else
    let cs := Text.trim cs
    match outcome (parseWith dropThoughts cs), (innerFence? cs).or (braceSpan? cs) with
    | .ok none, some inner => outcome (parseWith dropThoughts inner)
    | found, _ => found

end Extraction

end PromptCanvas.Document
