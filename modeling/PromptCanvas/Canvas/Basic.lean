import PromptCanvas.Graph.Basic
import PromptCanvas.Outline.Numbering

/-! # Canvases

`Canvas`: nodes with a position and a numbered list each, the edges between
them, and the selected node.  The content of a node is its rendered list. -/

set_option autoImplicit false

namespace PromptCanvas

structure Position where
  x : Binary64
  y : Binary64
  deriving DecidableEq, Repr

structure Canvas.Node where
  id : String
  role : Role
  label : String
  items : List Item
  position : Position
  deriving DecidableEq, Repr

structure Canvas.Edge where
  id : String
  source : String
  target : String
  deriving DecidableEq, Repr

structure Canvas where
  nodes : List Canvas.Node
  edges : List Canvas.Edge
  selected : Option String
  deriving DecidableEq, Repr

namespace Position

def origin : Position := ⟨.zero, .zero⟩

/-- Reading order: from top to bottom, and from left to right on one height. -/
def before (p q : Position) : Bool :=
  if p.y.eq q.y then p.x.le q.x else p.y.le q.y

def toJson (p : Position) : Json := .object [("x", .float p.x), ("y", .float p.y)]

end Position

namespace Canvas

section Nodes

def Node.content (n : Node) : String := Outline.render (n.items.map Item.toEntry)

def Node.exported (n : Node) : Graph.Node := ⟨n.id, n.role, n.label, n.content⟩

def Edge.pair (e : Edge) : String × String := (e.source, e.target)

def Edge.exported (e : Edge) : Graph.Edge := ⟨e.source, e.target⟩

end Nodes

section States

def empty : Canvas := ⟨[], [], none⟩

def find? (c : Canvas) (id : String) : Option Node := c.nodes.find? fun n => n.id == id

end States

section Writing

def Node.toJson (n : Node) : Json :=
  .object
    [("id", .string n.id), ("role", .string n.role.name), ("label", .string n.label),
      ("listItems", .array (n.items.map Item.toJson)), ("position", n.position.toJson),
      ("content", .string n.content)]

def Edge.toJson (e : Edge) : Json :=
  .object [("id", .string e.id), ("source", .string e.source), ("target", .string e.target)]

def toJson (c : Canvas) : Json :=
  .object
    [("nodes", .array (c.nodes.map Node.toJson)), ("edges", .array (c.edges.map Edge.toJson)),
      ("selectedNodeId", .ofOption .string c.selected)]

end Writing

end Canvas

end PromptCanvas
