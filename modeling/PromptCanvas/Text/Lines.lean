/-! # Lines

`splitOn`: a text cut at every occurrence of a character, which gives one part
more than there are occurrences.  `universalNewlines` ends every line the same way.
`cut?` finds the first occurrence of a text in another. -/

set_option autoImplicit false

namespace PromptCanvas.Text

section Splitting

def splitOn (sep : Char) : List Char → List (List Char)
  | [] => [[]]
  | c :: rest =>
      if c = sep then [] :: splitOn sep rest
      else
        match splitOn sep rest with
        | [] => [[c]]
        | first :: others => (c :: first) :: others

def lines (cs : List Char) : List (List Char) := splitOn '\n' cs

end Splitting

section Newlines

/-- A carriage return ends a line as a newline does, and the two together end one line. -/
def universalNewlines : List Char → List Char
  | [] => []
  | '\r' :: '\n' :: rest => '\n' :: universalNewlines rest
  | c :: rest => (if c = '\r' then '\n' else c) :: universalNewlines rest

end Newlines

section Searching

/-- The text before the first occurrence of `pattern` and the text after it. -/
def cut? (pattern : List Char) : List Char → Option (List Char × List Char)
  | [] => (pattern.isPrefixOf? []).map fun rest => ([], rest)
  | c :: cs =>
      match pattern.isPrefixOf? (c :: cs) with
      | some rest => some ([], rest)
      | none =>
          match cut? pattern cs with
          | some (before, rest) => some (c :: before, rest)
          | none => none

end Searching

end PromptCanvas.Text
