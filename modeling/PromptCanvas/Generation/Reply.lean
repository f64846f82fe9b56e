import PromptCanvas.Json.Display
import PromptCanvas.Text.Blank
import PromptCanvas.Text.Utf8

/-! # Replies of a model

`Reply.Value`: the values of a reply, in which any field may be absent or of any
kind.  `Reply.answer` finds the text of the answer: the first part that has a
text and the right type, else the text of the whole reply. -/

set_option autoImplicit false

namespace PromptCanvas.Reply

inductive Value where
  | none
  | truth (b : Bool)
  | int (n : Int)
  | float (x : Binary64)
  | text (s : String)
  | bytes (bs : List UInt8)
  | list (items : List Value)
  | record (fields : List (String × Value))
  deriving Repr, Inhabited

namespace Value

section Access

def field (v : Value) (name : String) : Value :=
  match v with
  | .record fields => (fields.lookup name).getD .none
  | _ => .none

/-- Zero and everything empty count as missing. -/
def isPresent : Value → Bool
  | .none => false
  | .truth b => b
  | .int n => n != 0
  | .float x => !x.eq .zero
  | .text s => !s.isEmpty
  | .bytes bs => !bs.isEmpty
  | .list items => !items.isEmpty
  | .record _ => true

def orElse (v w : Value) : Value := if v.isPresent then v else w

/-- The items of a value that can be gone through; a missing value has none. -/
def items? (v : Value) : Option (List Value) :=
  if v.isPresent then
    match v with
    | .list items => some items
    | .text s => some (s.toList.map fun c => .text (String.singleton c))
    | .bytes bs => some (bs.map fun b => .int b.toNat)
    | _ => Option.none
  else some []

end Access

section Display

def byteText (mark : Char) (b : UInt8) : List Char :=
  let c := Char.ofNat b.toNat
  if b.toNat < 0x7f then Text.escapedChar mark c else '\\' :: 'x' :: Text.hexText 2 b.toNat

def bytesText (bs : List UInt8) : List Char :=
  let mark := Text.quoteMark (bs.map fun b => Char.ofNat b.toNat)
  'b' :: mark :: bs.flatMap (byteText mark) ++ [mark]

mutual

def quotedText : Value → List Char
  | .none => "None".toList
  | .truth b => Json.quotedText (.bool b)
  | .int n => Json.intText n
  | .float x => x.shortestText
  | .text s => Text.quoted s.toList
  | .bytes bs => bytesText bs
  | .list [] => ['[', ']']
  | .list (item :: items) => '[' :: quotedText item ++ quotedItems items ++ [']']
  | .record [] => "namespace()".toList
  | .record ((name, value) :: fields) =>
      "namespace(".toList ++ name.toList ++ '=' :: quotedText value ++ quotedFields fields ++ [')']

def quotedItems : List Value → List Char
  | [] => []
  | item :: items => [',', ' '] ++ quotedText item ++ quotedItems items

def quotedFields : List (String × Value) → List Char
  | [] => []
  | (name, value) :: fields =>
      [',', ' '] ++ name.toList ++ '=' :: quotedText value ++ quotedFields fields

end

def display (v : Value) : String :=
  match v with
  | .text s => s
  | _ => String.ofList (quotedText v)

end Display

end Value

section Parts

/-- The lower-case type of a part, its own or else that of its inline data; none
if what stands there is no text. -/
def partType? (part : Value) : Option (List Char) :=
  match (part.field "mime_type").orElse ((part.field "inline_data").field "mime_type") with
  | .text s => some (s.toList.map Char.toLower)
  | v => if v.isPresent then none else some []

def isThought (type : List Char) : Bool := "application/x-thought".toList.isPrefixOf type

def isAnswer (type : List Char) : Bool :=
  "application/json".toList.isPrefixOf type || "text/".toList.isPrefixOf type

/-- The text of a part, else its inline data as text; none if the data cannot be decoded. -/
def partText? (part : Value) : Option Value :=
  let text := part.field "text"
  if text.isPresent then some text
  else
    match (part.field "inline_data").field "data" with
    | .bytes bs => (Text.decodeUtf8? bs).map .text
    | data => some (.text (if data.isPresent then data.display else ""))

inductive Found where
  | answer (v : Value)
  | nothing
  | malformed

def findInParts : List Value → Found
  | [] => .nothing
  | part :: rest =>
      match partType? part with
      | none => .malformed
      | some type =>
          if isThought type || !isAnswer type then findInParts rest
          else
            match partText? part with
            | none => .malformed
            | some text => if text.isPresent then .answer text else findInParts rest

def findInCandidates : List Value → Found
  | [] => .nothing
  | candidate :: rest =>
      match ((candidate.field "content").field "parts").items? with
      | none => .malformed
      | some parts =>
          match findInParts parts with
          | .nothing => findInCandidates rest
          | found => found

end Parts

section Answer

/-- A malformed part ends the search, so that the text of the whole reply counts. -/
def answer (reply : Value) : Value :=
  let whole := (reply.field "text").orElse (.text "")
  match (reply.field "candidates").items? with
  | none => whole
  | some candidates =>
      match findInCandidates candidates with
      | .answer v => v
      | _ => whole

end Answer

end PromptCanvas.Reply
