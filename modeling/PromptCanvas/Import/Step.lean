import PromptCanvas.Json.Basic

/-! # Imported steps

`Step`: a step of a prompt as a text describes it, its role still a word.
`Step.chain` is the graph in which every step leads to the next. -/

set_option autoImplicit false

namespace PromptCanvas.Import

structure Step where
  role : String
  label : String
  content : String
  deriving DecidableEq, Repr

namespace Step

section Chain

def idOf (n : Nat) : String := s!"import-{n}"

def toJson (s : Step) (n : Nat) : Json :=
  .object
    [("id", .string (idOf n)), ("role", .string s.role), ("label", .string s.label),
      ("content", .string s.content)]

def nodesFrom (n : Nat) : List Step → List Json
  | [] => []
  | s :: rest => s.toJson n :: nodesFrom (n + 1) rest

def link (n : Nat) : Json :=
  .object [("from", .string (idOf n)), ("to", .string (idOf (n + 1)))]

def chain (steps : List Step) : Json :=
  .object
    [("nodes", .array (nodesFrom 1 steps)),
      ("edges", .array ((List.range (steps.length - 1)).map fun n => link (n + 1)))]

end Chain

end Step

end PromptCanvas.Import
