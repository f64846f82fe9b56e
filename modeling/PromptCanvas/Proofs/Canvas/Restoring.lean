import PromptCanvas.Proofs.Canvas.WellFormed
import PromptCanvas.Proofs.Json.RoundTrip
import PromptCanvas.Workspace.Document

/-! # Restoring a stored canvas

A well-formed canvas that was stored is restored as it was, but for a selection
where it had none (`WellFormed.restore_toJson`, `complete_sketch`).  A file also
rounds its positions to the numbers that their texts are read as
(`Document.read_write`). -/

set_option autoImplicit false

namespace PromptCanvas

section Items

def Item.draft (i : Item) : Draft := { i.toEntry with id := some i.id }

theorem Level.ofJson_toNat (level : Level) : Level.ofJson (.nat level.toNat) = level := by
  cases level <;> decide +kernel

theorem Draft.ofJson_toJson {i : Item} (named : i.id ≠ "") : Draft.ofJson i.toJson = i.draft := by
  have level := Level.ofJson_toNat i.level
  rw [Item.toJson, Draft.ofJson]
  simp [Draft.textOf, Json.field, List.lookup_cons, Json.display, level, named, Item.draft]

theorem Draft.complete_draft (i : Item) (ids : IdSupply) : i.draft.complete ids = (i, ids) := rfl

theorem Draft.completeAll_draft (items : List Item) (ids : IdSupply) :
    Draft.completeAll (items.map Item.draft) ids = (items, ids) := by
  induction items with
  | nil => rfl
  | cons i items ih => simp only [List.map_cons, completeAll, complete_draft, ih]

end Items

namespace Checked

section Lists

variable {α β : Type}

theorem all_ok (values : List α) : all (values.map (Except.ok : α → Checked α)) = .ok values := by
  induction values with
  | nil => rfl
  | cons v values ih => simp only [List.map_cons, all, ih, both]

theorem all_map_ok {read : Json → Checked α} {write : β → Json} {view : β → α} {values : List β}
    (readBack : ∀ v ∈ values, read (write v) = .ok (view v)) :
    all ((values.map write).map read) = .ok (values.map view) := by
  rw [← all_ok, List.map_map, List.map_map]
  congr 1
  exact List.map_congr_left readBack

end Lists

end Checked

namespace Canvas

section Records

def Node.draft (n : Node) : NodeDraft := ⟨n.id, n.role, n.label, n.items.map Item.draft, n.position⟩

theorem Node.fields_toJson (n : Node) :
    n.toJson.field "id" = .string n.id ∧ n.toJson.field "role" = .string n.role.name ∧
      n.toJson.field "label" = .string n.label ∧
        n.toJson.field "listItems" = .array (n.items.map Item.toJson) ∧
          n.toJson.field "position" = n.position.toJson := by
  simp [Node.toJson, Json.field, List.lookup_cons]

theorem Node.hasField_toJson (n : Node) {name : String}
    (known : name ∈ ["id", "role", "label", "position"]) : n.toJson.hasField name = true := by
  simp only [List.mem_cons, List.not_mem_nil, or_false] at known
  rcases known with rfl | rfl | rfl | rfl <;> simp [Node.toJson, Json.hasField, List.lookup_cons]

theorem readRole_name (r : Role) : readRole (.string r.name) = .ok r := by
  have named : Role.ofName? r.name = some r := by cases r <;> decide
  rw [readRole, Json.string?, Option.bind_some, named, Checked.ofOption]

theorem readPosition_toJson (p : Position) : readPosition p.toJson = .ok p := by
  have x : p.toJson.hasField "x" = true ∧ p.toJson.field "x" = .float p.x := ⟨rfl, rfl⟩
  have y : p.toJson.hasField "y" = true ∧ p.toJson.field "y" = .float p.y := ⟨rfl, rfl⟩
  have number : ∀ z, Checked.number (.float z) = .ok z := fun _ => rfl
  have isObject : p.toJson.isObject = true := rfl
  simp only [readPosition, Checked.record, isObject, Checked.withDefault, x, y, if_true, number,
    Checked.under, Checked.both, Except.map]

theorem readItems_toJson {n : Node} (listed : Listed n.items) :
    readItems n.toJson = n.items.map Item.draft := by
  obtain ⟨-, -, -, items, -⟩ := n.fields_toJson
  rw [readItems, items]
  dsimp only [Json.array?, Option.getD_some]
  cases written : n.items.map Item.toJson with
  | nil => exact absurd (List.map_eq_nil_iff.mp written) listed.1
  | cons j js =>
      rw [Outline.drafts, ← written, List.map_map]
      · exact List.map_congr_left fun i member => Draft.ofJson_toJson (listed.2 i member).1
      · exact fun none => List.cons_ne_nil j js none

theorem NodeDraft.read_toJson {n : Node} (listed : Listed n.items) :
    NodeDraft.read n.toJson = .ok n.draft := by
  obtain ⟨id, role, label, -, position⟩ := n.fields_toJson
  have isObject : n.toJson.isObject = true := rfl
  rw [NodeDraft.read, Checked.record, if_pos isObject]
  simp only [Checked.required, Checked.withDefault, Node.hasField_toJson, List.mem_cons, true_or,
    or_true, if_true, id, role, label, position, readRole_name, readPosition_toJson,
    readItems_toJson listed, Checked.string, Json.string?, Checked.ofOption, Checked.under,
    Checked.both, Except.map]
  rfl

theorem Edge.read_toJson (e : Edge) : Edge.read e.toJson = .ok e := by
  simp [Edge.read, Checked.record, Edge.toJson, Json.isObject, Checked.required, Json.hasField,
    Json.field, List.lookup_cons, Checked.string, Json.string?, Checked.ofOption, Checked.under,
    Checked.both, Except.map]

end Records

section Canvases

variable {c : Canvas}

def sketch (c : Canvas) : Sketch := ⟨c.nodes.map Node.draft, c.edges, c.selected⟩

def withSelection (c : Canvas) : Canvas :=
  { c with selected := c.selected.or (c.nodes.head?.map Node.id) }

theorem completeNodes_draft (nodes : List Node) (ids : IdSupply) :
    completeNodes (nodes.map Node.draft) ids = (nodes, ids) := by
  induction nodes with
  | nil => rfl
  | cons n nodes ih =>
      simp only [List.map_cons, completeNodes, NodeDraft.complete, Node.draft,
        Draft.completeAll_draft, ih]

theorem complete_sketch (c : Canvas) (ids : IdSupply) : c.sketch.complete ids = (c, ids) := by
  simp only [Sketch.complete, sketch, completeNodes_draft]

theorem map_id_draft (nodes : List Node) :
    (nodes.map Node.draft).map NodeDraft.id = nodes.map Node.id := by
  rw [List.map_map]
  rfl

theorem restoreSelection_toJson (chosen : ∀ id, c.selected = some id → id ∈ c.ids) :
    restoreSelection (c.nodes.map Node.draft) (.ofOption .string c.selected) =
      c.withSelection.selected := by
  have first : (c.nodes.map Node.draft).head?.map NodeDraft.id = c.nodes.head?.map Node.id := by
    rw [← List.head?_map, map_id_draft, List.head?_map]
  cases selected : c.selected with
  | none =>
      rw [withSelection, selected]
      exact first
  | some id =>
      have known : (c.nodes.map Node.draft).any (fun d => d.id == id) = true := by
        obtain ⟨n, member, rfl⟩ := List.mem_map.mp (chosen id selected)
        exact List.any_eq_true.mpr ⟨n.draft, List.mem_map_of_mem member, beq_self_eq_true _⟩
      rw [withSelection, selected]
      simp only [Json.ofOption, restoreSelection, known, if_true, Option.some_or]

theorem fields_toJson (c : Canvas) :
    c.toJson.field "nodes" = .array (c.nodes.map Node.toJson) ∧
      c.toJson.field "edges" = .array (c.edges.map Edge.toJson) ∧
        c.toJson.field "selectedNodeId" = .ofOption .string c.selected := by
  simp [toJson, Json.field, List.lookup_cons]

/-- Lists whose items are named, and a selection that is a node, are restored as they were. -/
theorem restore_toJson (listed : ∀ n ∈ c.nodes, Listed n.items)
    (chosen : ∀ id, c.selected = some id → id ∈ c.ids) :
    restore c.toJson = c.withSelection.sketch := by
  obtain ⟨nodes, edges, selected⟩ := c.fields_toJson
  have readNodes : Checked.all ((c.nodes.map Node.toJson).map NodeDraft.read) =
      .ok (c.nodes.map Node.draft) :=
    Checked.all_map_ok fun n member => NodeDraft.read_toJson (listed n member)
  have readEdges : Checked.all ((c.edges.map Edge.toJson).map Edge.read) =
      .ok (c.edges.map id) := Checked.all_map_ok fun e _ => e.read_toJson
  rw [restore, sketchOf?, nodes, edges, selected]
  simp only [readNodes, readEdges, restoreSelection_toJson chosen, List.map_id,
    Option.getD_some]
  rfl

theorem WellFormed.restore_toJson (wellFormed : c.WellFormed) :
    restore c.toJson = c.withSelection.sketch :=
  Canvas.restore_toJson wellFormed.listed wellFormed.wired.chosen

theorem chosen_withSelection (chosen : ∀ id, c.selected = some id → id ∈ c.ids) :
    ∀ id, c.withSelection.selected = some id → id ∈ c.ids := by
  intro id same
  rw [Canvas.withSelection] at same
  cases selected : c.selected with
  | some _ =>
      rw [selected] at same
      exact chosen id (selected.trans same)
  | none =>
      rw [selected, Option.none_or, ← List.head?_map] at same
      exact List.mem_of_head? same

theorem WellFormed.withSelection (wellFormed : c.WellFormed) : c.withSelection.WellFormed :=
  ⟨wellFormed.wired.select (chosen_withSelection wellFormed.wired.chosen), wellFormed.listed⟩

end Canvases

section Files

def Node.reread (n : Node) : Node :=
  { n with position := ⟨n.position.x.reread, n.position.y.reread⟩ }

def reread (c : Canvas) : Canvas := { c with nodes := c.nodes.map Node.reread }

theorem Node.reread_toJson (n : Node) : n.toJson.reread = n.reread.toJson := by
  have items : Json.rereadItems (n.items.map Item.toJson) = n.items.map Item.toJson :=
    Json.rereadItems_map (fun _ => rfl) n.items
  simp only [Node.toJson, Node.reread, Json.reread, Json.rereadFields, items, Position.toJson,
    Node.content]

theorem reread_toJson (c : Canvas) : c.toJson.reread = c.reread.toJson := by
  have nodes : Json.rereadItems (c.nodes.map Node.toJson) = c.reread.nodes.map Node.toJson := by
    rw [Json.rereadItems_eq_map, reread, List.map_map, List.map_map]
    exact List.map_congr_left fun n _ => n.reread_toJson
  have edges : Json.rereadItems (c.edges.map Edge.toJson) = c.edges.map Edge.toJson :=
    Json.rereadItems_map (fun _ => rfl) c.edges
  have selected : (Json.ofOption .string c.selected).reread = .ofOption .string c.selected := by
    cases c.selected <;> rfl
  simp only [toJson, Json.reread, Json.rereadFields, nodes, edges, selected]
  rfl

theorem WellFormed.reread {c : Canvas} (wellFormed : c.WellFormed) : c.reread.WellFormed := by
  refine wellFormed.withNodes ?_ ?_
  · rw [List.map_map]
    rfl
  · intro n member
    obtain ⟨m, listed, rfl⟩ := List.mem_map.mp member
    exact wellFormed.listed m listed

theorem rereadable_level (level : Level) : (Json.nat level.toNat).Rereadable := by
  cases level <;> exact (by decide : 1 ≤ Json.digitLimit)

theorem Node.rereadable_toJson (n : Node) : n.toJson.Rereadable := by
  have item : ∀ i : Item, i.toJson.Rereadable := fun i =>
    ⟨(by decide : ["id", "text", "level"].Nodup), trivial, trivial, rereadable_level i.level,
      trivial⟩
  have position : n.position.toJson.Rereadable :=
    ⟨(by decide : ["x", "y"].Nodup), trivial, trivial, trivial⟩
  exact ⟨(by decide : ["id", "role", "label", "listItems", "position", "content"].Nodup), trivial,
    trivial, trivial, Json.itemsRereadable_map item n.items, position, trivial, trivial⟩

theorem rereadable_toJson (c : Canvas) : c.toJson.Rereadable := by
  have edge : ∀ e : Edge, e.toJson.Rereadable := fun e =>
    ⟨(by decide : ["id", "source", "target"].Nodup), trivial, trivial, trivial, trivial⟩
  have selected : (Json.ofOption .string c.selected).Rereadable := by
    cases c.selected <;> trivial
  exact ⟨(by decide : ["nodes", "edges", "selectedNodeId"].Nodup),
    Json.itemsRereadable_map Node.rereadable_toJson c.nodes, Json.itemsRereadable_map edge c.edges,
    selected, trivial⟩

end Files

end Canvas

namespace Workspace

section Documents

def Storage.kept (storage : Storage) (c : Canvas) : Canvas :=
  match storage with
  | .memory => c
  | .files => c.reread

theorem Document.read_write (storage : Storage) (c : Canvas) :
    (Document.write storage c.toJson).read = (storage.kept c).toJson := by
  cases storage with
  | memory => rfl
  | files =>
      have loaded : Json.load (c.toJson.render .document).toList = .ok c.reread.toJson := by
        rw [Json.load_render .document c.rereadable_toJson, c.reread_toJson]
      have isObject : c.reread.toJson.isObject = true := rfl
      rw [write, read]
      simp only [loaded, isObject, if_true]
      rfl

theorem Storage.wellFormed_kept (storage : Storage) {c : Canvas} (wellFormed : c.WellFormed) :
    (storage.kept c).WellFormed := by
  cases storage with
  | memory => exact wellFormed
  | files => exact wellFormed.reread

end Documents

end Workspace

end PromptCanvas
