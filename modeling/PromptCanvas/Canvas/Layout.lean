import PromptCanvas.Canvas.Draft
import PromptCanvas.Graph.Tier

/-! # Layout

`Graph.layOut`: an exported graph as a canvas, its tiers from top to bottom.
`LayoutMode.arrange`: the nodes of a canvas at new positions, in rows or columns
by tier or on a grid; nothing but the positions changes. -/

set_option autoImplicit false

namespace PromptCanvas

inductive LayoutMode where
  | vertical
  | horizontal
  | grid
  deriving DecidableEq, Repr

namespace LayoutMode

section Names

def all : List LayoutMode := [.vertical, .horizontal, .grid]

def name : LayoutMode → String
  | .vertical => "vertical"
  | .horizontal => "horizontal"
  | .grid => "grid"

def ofName? (s : String) : Option LayoutMode := all.find? fun m => m.name == s

end Names

section Values

structure Unknown where
  value : Json

def Unknown.message (u : Unknown) : String := s!"{u.value.quotedString} is not a valid LayoutMode"

def ofJson (j : Json) : Except Unknown LayoutMode :=
  match j.string?.bind ofName? with
  | some mode => .ok mode
  | none => .error ⟨j⟩

end Values

end LayoutMode

namespace Layout

section Places

def cell (column row : Nat) : Position := ⟨.ofNat (100 + column * 320), .ofNat (100 + row * 220)⟩

/-- Tiers are columns in horizontal mode and rows otherwise. -/
def tierCell (mode : LayoutMode) (tier lane : Nat) : Position :=
  match mode with
  | .horizontal => cell tier lane
  | _ => cell lane tier

def lastIndexOf (id : String) (ids : List String) : Nat := ids.length - 1 - ids.reverse.idxOf id

def laneOf (given : List (String × Nat)) (ids : List String) (id : String) : Nat :=
  lastIndexOf id (ids.filter fun other => tierIn given other == tierIn given id)

def tierPosition (mode : LayoutMode) (given : List (String × Nat)) (ids : List String)
    (id : String) : Position :=
  tierCell mode (tierIn given id) (laneOf given ids id)

end Places

section Grid

def ceilSqrt (n : Nat) : Nat := ((List.range (n + 1)).find? fun c => n ≤ c * c).getD n

/-- The position of the `i`th of `n` tiles, row by row in a square. -/
def gridCell (n i : Nat) : Position := cell (i % max 1 (ceilSqrt n)) (i / max 1 (ceilSqrt n))

end Grid

end Layout

namespace Canvas

section Arranging

def inReadingOrder (nodes : List Node) : List Node :=
  nodes.mergeSort fun a b => a.position.before b.position

def inTierOrder (given : List (String × Nat)) (nodes : List Node) : List Node :=
  nodes.mergeSort fun a b =>
    let s := tierIn given a.id
    let t := tierIn given b.id
    if s = t then a.position.before b.position else s < t

def arranged (mode : LayoutMode) (nodes : List Node) (edges : List (String × String))
    (id : String) : Position :=
  let sorted := inReadingOrder nodes
  let ids := sorted.map Node.id
  let given := tiers ids edges
  match mode with
  | .grid =>
      Layout.gridCell nodes.length
        (Layout.lastIndexOf id ((inTierOrder given sorted).map Node.id))
  | _ => Layout.tierPosition mode given ids id

def arrange (mode : LayoutMode) (nodes : List Node) (edges : List Edge) : List Node :=
  let place := arranged mode nodes (edges.map Edge.pair)
  nodes.map fun n => { n with position := place n.id }

/-- `arrange` with a mode that is still to be read; no nodes need no mode. -/
def arrangeBy (mode : Json) (nodes : List Node) (edges : List Edge) :
    Except LayoutMode.Unknown (List Node) :=
  if nodes.isEmpty then .ok []
  else (LayoutMode.ofJson mode).map fun mode => arrange mode nodes edges

end Arranging

end Canvas

namespace Graph

section Drawing

def byTier (given : List (String × Nat)) (ids : List String) : List String :=
  ids.mergeSort fun a b => tierIn given a ≤ tierIn given b

/-- The node that an identifier names, the last one if it names several. -/
def named? (g : Graph) (id : String) : Option Node := g.nodes.reverse.find? fun n => n.id == id

def draftAt (n : Node) (position : Position) : Canvas.NodeDraft :=
  ⟨n.id, n.role, n.label, (Outline.read n.content).map Entry.draft, position⟩

def drawnEdge (e : Edge) (index : Nat) : Canvas.Edge :=
  ⟨s!"e-{e.source}-{e.target}-{index}", e.source, e.target⟩

def layOut (g : Graph) : Canvas.Sketch :=
  let given := tiers g.ids g.pairs
  let nodes := (byTier given g.ids).filterMap fun id =>
    (g.named? id).map fun n => draftAt n (Layout.tierPosition .vertical given g.ids id)
  { nodes := nodes
    edges := g.edges.mapIdx fun index e => drawnEdge e index
    selected := nodes.head?.map Canvas.NodeDraft.id }

end Drawing

end Graph

end PromptCanvas
