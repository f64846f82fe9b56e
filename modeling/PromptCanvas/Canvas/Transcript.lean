import PromptCanvas.Canvas.Basic

/-! # Transcripts

`Canvas.walk`: the nodes of a canvas in depth-first order.  `Transcript.of`:
the steps of a canvas in that order, numbered, with the prompt that they spell
and the exported graph.  `Transcript.markdown` is the prompt as a document. -/

set_option autoImplicit false

namespace PromptCanvas

structure Transcript.Step where
  step : Nat
  id : String
  role : Role
  label : String
  content : String
  deriving DecidableEq, Repr

structure Transcript where
  steps : List Transcript.Step
  prompt : String
  graph : Graph
  deriving DecidableEq, Repr

namespace Canvas

section Order

variable (nodes : List Node) (edges : List Edge)

/-- The places in the node list, in reading order of their nodes. -/
def sortPlaces (places : List Nat) : List Nat :=
  places.mergeSort fun i j =>
    match nodes[i]?, nodes[j]? with
    | some a, some b => a.position.before b.position
    | _, _ => true

def placesOf (id : String) : List Nat :=
  (List.range nodes.length).filter fun i => (nodes[i]?.map Node.id) == some id

/-- The places that the edges out of a node lead to, in reading order. -/
def successors (place : Nat) : List Nat :=
  match nodes[place]? with
  | some n =>
      sortPlaces nodes
        ((edges.filter fun e => e.source == n.id).flatMap fun e => placesOf nodes e.target)
  | none => []

/-- The nodes without an edge into them in reading order, then all nodes as they stand. -/
def roots : List Nat :=
  let places := List.range nodes.length
  let sources := places.filter fun i =>
    match nodes[i]? with
    | some n => edges.all fun e => e.target != n.id
    | none => false
  sortPlaces nodes sources ++ places

/-- Emits the places of a stack that are still unvisited, each before its successors. -/
def walkFrom (unvisited stack : List Nat) : List Nat :=
  match stack with
  | [] => []
  | place :: rest =>
      if place ∈ unvisited then
        place :: walkFrom (unvisited.erase place) (successors nodes edges place ++ rest)
      else walkFrom unvisited rest
termination_by (unvisited.length, stack.length)
decreasing_by
  · have := List.length_erase_of_mem ‹place ∈ unvisited›
    have := List.length_pos_of_mem ‹place ∈ unvisited›
    exact Prod.Lex.left _ _ (by omega)
  · exact Prod.Lex.right _ (by simp)

def walk : List Node :=
  (walkFrom nodes edges (List.range nodes.length) (roots nodes edges)).filterMap (nodes[·]?)

end Order

end Canvas

namespace Transcript

section Composing

def stepsFrom (n : Nat) : List Canvas.Node → List Step
  | [] => []
  | node :: rest => ⟨n, node.id, node.role, node.label, node.content⟩ :: stepsFrom (n + 1) rest

def Step.shown (s : Step) : String := if s.content.isEmpty then "(empty)" else s.content

/-- A header with the number and the role, and the content below it. -/
def Step.block (s : Step) : String := s!"[{s.step}] {s.role.heading}\n{s.shown}"

def promptOf (steps : List Step) : String := "\n\n".intercalate (steps.map Step.block)

/-- A canvas without nodes has the empty transcript, whatever its edges. -/
def of (nodes : List Canvas.Node) (edges : List Canvas.Edge) : Transcript :=
  if nodes.isEmpty then ⟨[], "", ⟨[], []⟩⟩
  else
    let steps := stepsFrom 1 (Canvas.walk nodes edges)
    { steps := steps
      prompt := promptOf steps
      graph := ⟨nodes.map Canvas.Node.exported, edges.map Canvas.Edge.exported⟩ }

end Composing

section Writing

def text (t : Transcript) : String :=
  if Text.isBlankString t.prompt then "No prompt steps yet." else t.prompt

def markdown (t : Transcript) : String := s!"# Generated Prompt\n\n{t.text}\n"

def Step.toJson (s : Step) : Json :=
  .object
    [("step", .nat s.step), ("id", .string s.id), ("role", .string s.role.name),
      ("label", .string s.label), ("content", .string s.content)]

def toJson (t : Transcript) : Json :=
  .object
    [("sequence", .array (t.steps.map Step.toJson)), ("structuredPrompt", .string t.prompt),
      ("graph", t.graph.toJson)]

end Writing

end Transcript

end PromptCanvas
