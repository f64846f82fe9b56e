import PromptCanvas.Import.Document
import PromptCanvas.Import.Step
import PromptCanvas.Outline.Numbering

/-! # Dialects of prompt text

Each dialect turns a text into a graph if the text is written in it: a JSON
graph, bracketed blocks with numbered children, a numbered outline, role
blocks, role lines, and plain text.  `Import.read` takes the first dialect that
fits; none fits a blank text. -/

set_option autoImplicit false

namespace PromptCanvas.Import

section Documents

/-- A document that holds an array of nodes and an array of edges, as it is. -/
def graphDocument? (j : Json) : Option Json :=
  match j.field "nodes", j.field "edges" with
  | .array _, .array _ => some j
  | _, _ => none

def jsonGraph (cs : List Char) : Except Json.Overlong (Option Json) :=
  (Document.extract false cs).map fun found => found.bind graphDocument?

end Documents

section Headers

def exportedWords : List (List Char) :=
  ["system".toList, "user".toList, "assistant".toList]

def roleWords : List (List Char) := exportedWords ++ ["condition".toList]

/-- A number in brackets and one of some words: the number, the word as written, and the rest. -/
def bracketed? (words : List (List Char)) (cs : List Char) :
    Option (List Char × List Char × List Char) :=
  match cs with
  | '[' :: rest =>
      match rest.span Text.isDigit with
      | ([], _) => none
      | (number, ']' :: rest) =>
          (Text.oneOf? words (Text.trimStart rest)).map fun found => (number, found.1, found.2)
      | _ => none
  | _ => none

def stepOf (word content : List Char) : Step :=
  let role := Text.lower word
  ⟨String.ofList role, String.ofList (Text.capitalized role), String.ofList content⟩

end Headers

section Brackets

structure Block where
  number : List Char
  role : List Char
  children : List (List Char)
  deriving DecidableEq, Repr

def blockHeader? (line : List Char) : Option Block :=
  match bracketed? exportedWords line with
  | some (number, word, rest) =>
      if Text.isBlankText rest then some ⟨number, word, []⟩ else none
  | none => none

/-- The text of a line that begins with the number of a child of the given block. -/
def childText? (number line : List Char) : Option (List Char) :=
  match (number ++ ['.']).isPrefixOf? line with
  | none => none
  | some rest =>
      match rest.span Text.isDigit with
      | ([], _) => none
      | (_, rest) =>
          match rest.span Text.isBlank with
          | ([], _) => none
          | (_, []) => none
          | (_, text) => some (Text.trim text)

def continueLast (line : List Char) : List (List Char) → List (List Char)
  | [] => []
  | [child] => [Text.trim (child ++ ' ' :: line)]
  | child :: rest => child :: continueLast line rest

def Block.addLine (b : Block) (line : List Char) : Block :=
  match childText? b.number line with
  | some text => { b with children := b.children ++ [text] }
  | none => { b with children := continueLast line b.children }

/-- The blocks of some lines; lines before the first header belong to none. -/
def blocksFrom (current : Option Block) : List (List Char) → List Block
  | [] => current.toList
  | line :: rest =>
      match blockHeader? line with
      | some block => current.toList ++ blocksFrom (some block) rest
      | none => blocksFrom (current.map fun b => b.addLine line) rest

def numberedChildren (n : Nat) : List (List Char) → List (List Char)
  | [] => []
  | child :: rest =>
      (Nat.toDigits 10 n ++ '.' :: ' ' :: child) :: numberedChildren (n + 1) rest

def Block.content (b : Block) : List Char :=
  match b.children with
  | [] => "No content".toList
  | children => List.intercalate ['\n'] (numberedChildren 1 children)

def bracketBlocks (cs : List Char) : Option (List Step) :=
  match blocksFrom none (Outline.trimmedLines cs) with
  | [] => none
  | blocks => some (blocks.map fun b => stepOf b.role b.content)

end Brackets

section NumberedOutline

/-- A numbered line is a step; any other line names the section of the steps after it. -/
def outlineFrom (title : List Char) : List (List Char) → List Step
  | [] => []
  | line :: rest =>
      match Outline.numbered? ['.', ')'] line with
      | none => outlineFrom line rest
      | some (number, text) =>
          let text := Text.trim text
          let label :=
            if title.isEmpty then "Step ".toList ++ number
            else title ++ " (".toList ++ number ++ [')']
          let content := if title.isEmpty then text else title ++ ": ".toList ++ text
          ⟨"user", String.ofList label, String.ofList content⟩ :: outlineFrom title rest

def numberedOutline (cs : List Char) : Option (List Step) :=
  match outlineFrom [] (Outline.trimmedLines cs) with
  | [] => none
  | steps => some steps

end NumberedOutline

section RoleBlocks

/-- The text after the last newline of the blanks at the start of a text, if there is one. -/
def afterNewline? (cs : List Char) : Option (List Char) :=
  let (blanks, rest) := cs.span Text.isBlank
  match blanks.reverse.span (· != '\n') with
  | (_, []) => none
  | (kept, _) => some (kept.reverse ++ rest)

/-- A header that ends its line: the word as written and the text after it. -/
def roleHeader? (cs : List Char) : Option (List Char × List Char) :=
  match bracketed? roleWords cs with
  | some (_, word, rest) => (afterNewline? rest).map fun after => (word, after)
  | none => none

/-- The text up to a line that begins with a header, and the rest from the newline on. -/
def spanBody : List Char → List Char × List Char
  | [] => ([], [])
  | c :: rest =>
      if c = '\n' && (roleHeader? rest).isSome then ([], c :: rest)
      else
        let (body, after) := spanBody rest
        (c :: body, after)

/-- The words and bodies of the blocks of a text, wherever their headers stand;
`n` bounds the count of the characters that are left. -/
def roleBlocksFrom : Nat → List Char → List (List Char × List Char)
  | 0, _ => []
  | _, [] => []
  | n + 1, c :: rest =>
      match roleHeader? (c :: rest) with
      | some (word, after) =>
          let (body, after) := spanBody after
          (word, Text.trim body) :: roleBlocksFrom n after
      | none => roleBlocksFrom n rest

def roleBlocks (cs : List Char) : Option (List Step) :=
  let cs := Text.trim cs
  match (roleBlocksFrom cs.length cs).filter fun b => !b.2.isEmpty with
  | [] => none
  | blocks => some (blocks.map fun b => stepOf b.1 b.2)

end RoleBlocks

section RoleLines

def roleLine? (line : List Char) : Option Step :=
  match Text.oneOf? roleWords line with
  | some (word, rest) =>
      match Text.trimStart rest with
      | ':' :: rest =>
          match Text.trim rest with
          | [] => none
          | content => some (stepOf word content)
      | _ => none
  | none => none

def roleLines (cs : List Char) : Option (List Step) :=
  match (Outline.trimmedLines cs).filterMap roleLine? with
  | [] => none
  | steps => some steps

end RoleLines

section Plain

def plainText (cs : List Char) : Option (List Step) :=
  match Text.trim cs with
  | [] => none
  | text => some [⟨"user", "User", String.ofList text⟩]

end Plain

section Reading

/-- The dialects that tell steps, in the order in which they are tried after JSON. -/
def dialects : List (List Char → Option (List Step)) :=
  [bracketBlocks, numberedOutline, roleBlocks, roleLines, plainText]

def told? (cs : List Char) : Option (List Step) := dialects.findSome? fun dialect => dialect cs

/-- The graph that a text describes, not checked; none for a blank text. -/
def read (text : String) : Except Json.Overlong (Option Json) :=
  let cs := Text.trim text.toList
  match jsonGraph cs with
  | .ok none => .ok ((told? cs).map Step.chain)
  | found => found

end Reading

end PromptCanvas.Import
