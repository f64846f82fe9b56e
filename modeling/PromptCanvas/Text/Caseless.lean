/-! # Words in any case

`word?`: reads a word of ASCII letters in any case.  Folding identifies four
more characters with letters: the long s with `s`, and the dotted capital I
and the dotless i with `i`.  `lower` is the lower case of such a word and
`capitalized` gives it a capital first letter. -/

set_option autoImplicit false

namespace PromptCanvas.Text

section Folding

/-- The lower-case ASCII letter that a character is a case of, or the character itself. -/
def fold (c : Char) : Char :=
  if c = '\u017f' then 's'
  else if c = '\u0130' || c = '\u0131' then 'i'
  else c.toLower

def word? : List Char → List Char → Option (List Char × List Char)
  | [], cs => some ([], cs)
  | _ :: _, [] => none
  | w :: word, c :: cs =>
      if fold c = w then
        match word? word cs with
        | some (read, rest) => some (c :: read, rest)
        | none => none
      else none

def oneOf? (words : List (List Char)) (cs : List Char) : Option (List Char × List Char) :=
  words.findSome? fun word => word? word cs

end Folding

section Casing

/-- Lower case; the dotted capital I becomes an i and a combining dot. -/
def lower (cs : List Char) : List Char :=
  cs.flatMap fun c => if c = '\u0130' then ['i', '\u0307'] else [c.toLower]

def capitalized : List Char → List Char
  | [] => []
  | c :: cs => (if c = '\u017f' then 'S' else c.toUpper) :: cs

def sameWord (a b : List Char) : Bool := a.map Char.toLower == b.map Char.toLower

end Casing

end PromptCanvas.Text
