import PromptCanvas.Graph.Role
import PromptCanvas.Json.Basic

/-! # Prompt graphs

`Graph`: steps with an identifier, a role, a label and their content, and the
edges between them, as they are imported, generated and exported. -/

set_option autoImplicit false

namespace PromptCanvas

structure Graph.Node where
  id : String
  role : Role
  label : String
  content : String
  deriving DecidableEq, Repr

structure Graph.Edge where
  source : String
  target : String
  deriving DecidableEq, Repr

structure Graph where
  nodes : List Graph.Node
  edges : List Graph.Edge
  deriving DecidableEq, Repr

namespace Graph

section Views

def Edge.pair (e : Edge) : String × String := (e.source, e.target)

def ids (g : Graph) : List String := g.nodes.map Node.id

def pairs (g : Graph) : List (String × String) := g.edges.map Edge.pair

end Views

section Writing

def Node.toJson (n : Node) : Json :=
  .object
    [("id", .string n.id), ("role", .string n.role.name), ("label", .string n.label),
      ("content", .string n.content)]

def Edge.toJson (e : Edge) : Json :=
  .object [("from", .string e.source), ("to", .string e.target)]

def toJson (g : Graph) : Json :=
  .object [("nodes", .array (g.nodes.map Node.toJson)), ("edges", .array (g.edges.map Edge.toJson))]

end Writing

end Graph

end PromptCanvas
