import PromptCanvas.Text.Ranges

/-! # Blanks

`isBlank`: white space together with the four information separators, the
characters around a text that `trim` takes away.  `isSpace`: white space
alone, the characters allowed around a numeral. -/

set_option autoImplicit false

namespace PromptCanvas.Text

section Classes

def spaceRanges : List (Nat × Nat) :=
  [(0x09, 0x0d), (0x20, 0x20), (0x85, 0x85), (0xa0, 0xa0), (0x1680, 0x1680), (0x2000, 0x200a),
    (0x2028, 0x2029), (0x202f, 0x202f), (0x205f, 0x205f), (0x3000, 0x3000)]

def isSpace (c : Char) : Bool := inRanges spaceRanges c

def isBlank (c : Char) : Bool := isSpace c || inRanges [(0x1c, 0x1f)] c

end Classes

section Trimming

def dropEndWhile (p : Char → Bool) (cs : List Char) : List Char :=
  (cs.reverse.dropWhile p).reverse

def trimStart (cs : List Char) : List Char := cs.dropWhile isBlank

def trimEnd (cs : List Char) : List Char := dropEndWhile isBlank cs

def trim (cs : List Char) : List Char := trimEnd (trimStart cs)

def isBlankText (cs : List Char) : Bool := cs.all isBlank

def trimSpaces (cs : List Char) : List Char := dropEndWhile isSpace (cs.dropWhile isSpace)

def trimmed (s : String) : String := String.ofList (trim s.toList)

def isBlankString (s : String) : Bool := isBlankText s.toList

end Trimming

end PromptCanvas.Text
