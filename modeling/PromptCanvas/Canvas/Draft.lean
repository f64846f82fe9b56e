import PromptCanvas.Canvas.Basic
import PromptCanvas.Json.Record

/-! # Canvas drafts

`Canvas.NodeDraft`: a node whose list items may still lack identifiers, as it is
read from JSON or made from an exported node.  `Canvas.restore` is the canvas
that a stored value holds, the default canvas if it holds none. -/

set_option autoImplicit false

namespace PromptCanvas

structure Canvas.NodeDraft where
  id : String
  role : Role
  label : String
  items : List Draft
  position : Position
  deriving DecidableEq, Repr

structure Canvas.Sketch where
  nodes : List Canvas.NodeDraft
  edges : List Canvas.Edge
  selected : Option String
  deriving DecidableEq, Repr

namespace Canvas

section Completion

def NodeDraft.complete (d : NodeDraft) (ids : IdSupply) : Node × IdSupply :=
  let (items, ids) := Draft.completeAll d.items ids
  (⟨d.id, d.role, d.label, items, d.position⟩, ids)

def completeNodes : List NodeDraft → IdSupply → List Node × IdSupply
  | [], ids => ([], ids)
  | d :: ds, ids =>
      let (node, ids) := d.complete ids
      let (nodes, ids) := completeNodes ds ids
      (node :: nodes, ids)

def Sketch.complete (s : Sketch) (ids : IdSupply) : Canvas × IdSupply :=
  let (nodes, ids) := completeNodes s.nodes ids
  (⟨nodes, s.edges, s.selected⟩, ids)

end Completion

section Records

def readRole (j : Json) : Checked Role := .ofOption j (j.string?.bind Role.ofName?)

def readPosition (j : Json) : Checked Position :=
  .record j fun j =>
    (Checked.both (.withDefault j "x" .zero .number) (.withDefault j "y" .zero .number)).map
      fun (x, y) => ⟨x, y⟩

/-- The list of a node: its items, under either of two names, or if it has none
the lines of its content. -/
def readItems (j : Json) : List Draft :=
  let listed :=
    match j.field "listItems" with
    | .null => j.field "list_items"
    | listed => listed
  Outline.drafts (listed.array?.getD []) ((j.field "content").string?.getD "")

def NodeDraft.read (j : Json) : Checked NodeDraft :=
  .record j fun j =>
    let id := Checked.required j "id" .string
    let role := Checked.withDefault j "role" .user readRole
    let label := Checked.withDefault j "label" "" .string
    let position := Checked.withDefault j "position" .origin readPosition
    (Checked.both id (.both role (.both label position))).map
      fun (id, role, label, position) => ⟨id, role, label, readItems j, position⟩

def Edge.read (j : Json) : Checked Edge :=
  .record j fun j =>
    let id := Checked.required j "id" .string
    let source := Checked.required j "source" .string
    let target := Checked.required j "target" .string
    (Checked.both id (.both source target)).map fun (id, source, target) => ⟨id, source, target⟩

end Records

section Restoring

def initial : Sketch :=
  { nodes :=
      [⟨"n1", .system, "System", [line "You are a careful assistant.",
          line "Always provide structured output."], ⟨.ofNat 120, .ofNat 120⟩⟩,
        ⟨"n2", .user, "User", [line "Summarize the latest ticket updates.",
          line "Suggest next actions."], ⟨.ofNat 420, .ofNat 300⟩⟩]
    edges := [⟨"e-n1-n2", "n1", "n2"⟩]
    selected := some "n1" }
where
  line (text : String) : Draft := { text := text, level := .one, id := none }

/-- The stored selection if it names a node, else the first node. -/
def restoreSelection (nodes : List NodeDraft) (j : Json) : Option String :=
  match j with
  | .string id =>
      if nodes.any fun n => n.id == id then some id else nodes.head?.map NodeDraft.id
  | _ => nodes.head?.map NodeDraft.id

def sketchOf? (j : Json) : Option Sketch :=
  match j.field "nodes", j.field "edges" with
  | .array nodes, .array edges =>
      match Checked.all (nodes.map NodeDraft.read), Checked.all (edges.map Edge.read) with
      | .ok nodes, .ok edges =>
          some ⟨nodes, edges, restoreSelection nodes (j.field "selectedNodeId")⟩
      | _, _ => none
  | _, _ => none

def restore (j : Json) : Sketch := (sketchOf? j).getD initial

end Restoring

end Canvas

namespace Graph

section Records

def Node.read (j : Json) : Checked Node :=
  .record j fun j =>
    let id := Checked.required j "id" .string
    let role := Checked.required j "role" Canvas.readRole
    let label := Checked.required j "label" .string
    let content := Checked.required j "content" .string
    (Checked.both id (.both role (.both label content))).map
      fun (id, role, label, content) => ⟨id, role, label, content⟩

def readEnd (j : Json) (name other : String) : Checked String :=
  if !j.hasField name && j.hasField other then .required j other .string
  else .required j name .string

def Edge.read (j : Json) : Checked Edge :=
  .record j fun j =>
    (Checked.both (readEnd j "from" "source") (readEnd j "to" "target")).map
      fun (source, target) => ⟨source, target⟩

def readList {α : Type} (read : Json → Checked α) (j : Json) : Checked (List α) :=
  match j with
  | .array items => .items read items
  | _ => .misfit j

/-- A graph whose fields have the right types, whether or not it is a valid flow. -/
def readTyped (j : Json) : Checked Graph :=
  .record j fun j =>
    let nodes := Checked.withDefault j "nodes" [] (readList Node.read)
    let edges := Checked.withDefault j "edges" [] (readList Edge.read)
    (Checked.both nodes edges).map fun (nodes, edges) => ⟨nodes, edges⟩

end Records

end Graph

end PromptCanvas
