import PromptCanvas.Text.Lines

/-! # Paths

`Path`: the name of a place among files, as a root and the parts below it.
`Path.read?` drops the parts that lead nowhere, so that `Path.text` is the
shortest spelling of the same steps. -/

set_option autoImplicit false

namespace PromptCanvas

structure Path where
  root : String
  parts : List String
  deriving DecidableEq, Repr

namespace Path

section Reading

/-- A root is one slash, but exactly two slashes stand for a root of their own. -/
def rootOf (cs : List Char) : String :=
  match (cs.takeWhile (· == '/')).length with
  | 0 => ""
  | 2 => "//"
  | _ => "/"

def partsOf (cs : List Char) : List String :=
  ((Text.splitOn '/' cs).map String.ofList).filter fun part => part != "" && part != "."

def read? (s : String) : Option Path :=
  let cs := s.toList
  if cs.contains (Char.ofNat 0) then none else some ⟨rootOf cs, partsOf cs⟩

end Reading

section Writing

def text (p : Path) : String :=
  if p.root.isEmpty && p.parts.isEmpty then "." else p.root ++ "/".intercalate p.parts

end Writing

end Path

end PromptCanvas
