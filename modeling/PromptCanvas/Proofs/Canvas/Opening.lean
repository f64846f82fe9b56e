import PromptCanvas.Proofs.Canvas.Restoring
import PromptCanvas.Proofs.Workspace.Run

/-! # Opening any stored value

Whatever is stored, a workspace opens on it.  The canvas that it shows has named lists and
a selection that fits its nodes, and is given back when it is stored and opened again
(`opened_stable`).  A value with lists of nodes and edges is either read element by
element, in order, or holds an element that is refused, and only then does the default
canvas stand in for it (`restore_cases`). -/

set_option autoImplicit false

namespace PromptCanvas

namespace Checked

section Refusing

variable {α β : Type}

def Refuses (read : Json → Checked α) (j : Json) : Prop := ∃ misfits, read j = .error misfits

theorem map_eq_ok {c : Checked α} {f : α → β} {b : β} (mapped : c.map f = .ok b) :
    ∃ a, c = .ok a ∧ f a = b := by
  cases c with
  | error misfits => cases mapped
  | ok a => exact ⟨a, rfl, Except.ok.inj mapped⟩

theorem record_eq_ok {read : Json → Checked α} {j : Json} {a : α}
    (reads : record j read = .ok a) : read j = .ok a := by
  unfold record at reads
  split at reads
  · exact reads
  · cases reads

theorem all_cases (read : Json → Checked α) (js : List Json) :
    (∃ values, js.map read = values.map .ok ∧ all (js.map read) = .ok values) ∨
      (∃ j ∈ js, Refuses read j) ∧ ∃ misfits, all (js.map read) = .error misfits := by
  induction js with
  | nil => exact .inl ⟨[], rfl, rfl⟩
  | cons j js ih =>
      cases first : read j with
      | error misfits =>
          refine .inr ⟨⟨j, List.mem_cons_self, misfits, first⟩, ?_⟩
          rw [List.map_cons, all, first]
          cases all (js.map read) with
          | ok values => exact ⟨misfits, rfl⟩
          | error others => exact ⟨misfits ++ others, rfl⟩
      | ok value =>
          rcases ih with ⟨values, same, read_all⟩ | ⟨⟨k, member, refused⟩, misfits, failed⟩
          · refine .inl ⟨value :: values, ?_, ?_⟩
            · rw [List.map_cons, first, same, List.map_cons]
            · rw [List.map_cons, all, first, read_all]
              rfl
          · refine .inr ⟨⟨k, List.mem_cons_of_mem j member, refused⟩, misfits, ?_⟩
            rw [List.map_cons, all, first, failed]
            rfl

end Refusing

end Checked

namespace Canvas

open Checked (Refuses)

section Nodes

def Node.Reads (j : Json) (n : Node) : Prop :=
  ∃ d ids, NodeDraft.read j = .ok d ∧ n = (d.complete ids).1

theorem reads_completeNodes (ds : List NodeDraft) :
    ∀ (js : List Json) (ids : IdSupply), js.map NodeDraft.read = ds.map .ok →
      List.Forall₂ Node.Reads js (completeNodes ds ids).1 := by
  induction ds with
  | nil =>
      intro js ids same
      rw [List.map_nil, List.map_eq_nil_iff] at same
      rw [same]
      exact .nil
  | cons d ds ih =>
      intro js ids same
      cases js with
      | nil => cases same
      | cons j js =>
          rw [List.map_cons, List.map_cons, List.cons.injEq] at same
          exact .cons ⟨d, ids, same.1, rfl⟩ (ih js _ same.2)

theorem items_of_read {j : Json} {d : NodeDraft} (reads : NodeDraft.read j = .ok d) :
    d.items = readItems j := by
  obtain ⟨parts, -, rfl⟩ := Checked.map_eq_ok (Checked.record_eq_ok reads)
  rfl

end Nodes

section Sketches

/-- Lists that are only to be named, and a selection of some node unless there is none. -/
structure Sketch.Selected (s : Sketch) : Prop where
  chosen : ∀ id, s.selected = some id → id ∈ s.nodes.map NodeDraft.id
  unchosen : s.selected = none → s.nodes = []
  nonempty : ∀ d ∈ s.nodes, d.items ≠ []
  named : ∀ d ∈ s.nodes, ∀ i ∈ d.items, i.id ≠ some ""

theorem selected_initial : initial.Selected := by
  constructor
  case chosen => exact wellFormed_initial.wired.chosen
  case unchosen => exact fun none => by cases none
  case nonempty => exact wellFormed_initial.nonempty
  case named => exact wellFormed_initial.named

theorem restoreSelection_eq_some {nodes : List NodeDraft} {j : Json} {id : String}
    (chosen : restoreSelection nodes j = some id) : id ∈ nodes.map NodeDraft.id := by
  have first : nodes.head?.map NodeDraft.id = some id → id ∈ nodes.map NodeDraft.id := by
    rw [← List.head?_map]
    exact List.mem_of_head?
  unfold restoreSelection at chosen
  split at chosen
  · split at chosen
    · next known =>
        cases chosen
        obtain ⟨d, member, same⟩ := List.any_eq_true.mp known
        rw [← beq_iff_eq.mp same]
        exact List.mem_map_of_mem member
    · exact first chosen
  · exact first chosen

theorem restoreSelection_eq_none {nodes : List NodeDraft} {j : Json}
    (unchosen : restoreSelection nodes j = none) : nodes = [] := by
  cases nodes with
  | nil => rfl
  | cons d ds =>
      unfold restoreSelection at unchosen
      split at unchosen
      · split at unchosen <;> cases unchosen
      · cases unchosen

end Sketches

section Restoring

variable {raw : Json} {nodes edges : List Json}

/-- A value with lists of nodes and edges is read element by element, or one is refused. -/
theorem restore_cases (nodesField : raw.field "nodes" = .array nodes)
    (edgesField : raw.field "edges" = .array edges) :
    (∃ drafts drawn, nodes.map NodeDraft.read = drafts.map .ok ∧
        edges.map Edge.read = drawn.map .ok ∧
          restore raw = ⟨drafts, drawn, restoreSelection drafts (raw.field "selectedNodeId")⟩) ∨
      ((∃ j ∈ nodes, Refuses NodeDraft.read j) ∨ ∃ j ∈ edges, Refuses Edge.read j) ∧
        restore raw = initial := by
  rw [restore, sketchOf?, nodesField, edgesField]
  dsimp only
  rcases Checked.all_cases NodeDraft.read nodes with
    ⟨drafts, sameNodes, readNodes⟩ | ⟨refused, misfits, failed⟩
  · rcases Checked.all_cases Edge.read edges with
      ⟨drawn, sameEdges, readEdges⟩ | ⟨refused, misfits, failed⟩
    · rw [readNodes, readEdges]
      exact .inl ⟨drafts, drawn, sameNodes, sameEdges, rfl⟩
    · rw [readNodes, failed]
      exact .inr ⟨.inr refused, rfl⟩
  · rw [failed]
    exact .inr ⟨.inl refused, rfl⟩

theorem restore_eq_initial (shapeless : ¬ ∃ nodes edges, raw.field "nodes" = .array nodes ∧
    raw.field "edges" = .array edges) : restore raw = initial := by
  rw [restore, sketchOf?]
  split
  · next nodes edges nodesField edgesField =>
      exact absurd ⟨nodes, edges, nodesField, edgesField⟩ shapeless
  · rfl

theorem selected_restore (raw : Json) : (restore raw).Selected := by
  by_cases shape : ∃ nodes edges, raw.field "nodes" = .array nodes ∧
      raw.field "edges" = .array edges
  · obtain ⟨nodes, edges, nodesField, edgesField⟩ := shape
    rcases restore_cases nodesField edgesField with
      ⟨drafts, drawn, same, -, restored⟩ | ⟨-, restored⟩
    · rw [restored]
      have items : ∀ d ∈ drafts, ∃ j, d.items = readItems j := by
        intro d member
        have listed : Except.ok d ∈ nodes.map NodeDraft.read := same ▸ List.mem_map_of_mem member
        obtain ⟨j, -, reads⟩ := List.mem_map.mp listed
        exact ⟨j, items_of_read reads⟩
      constructor
      case chosen => exact fun id => restoreSelection_eq_some
      case unchosen => exact restoreSelection_eq_none
      case nonempty =>
        intro d member
        obtain ⟨j, same⟩ := items d member
        rw [same]
        exact drafts_ne_nil _ _
      case named =>
        intro d member
        obtain ⟨j, same⟩ := items d member
        rw [same]
        exact named_drafts _ _
    · rw [restored]
      exact selected_initial
  · rw [restore_eq_initial shape]
    exact selected_initial

end Restoring

section Opening

def opened (raw : Json) (ids : IdSupply) : Canvas := ((restore raw).complete ids).1

variable (raw : Json) (ids : IdSupply)

theorem ids_opened : (opened raw ids).ids = (restore raw).nodes.map NodeDraft.id :=
  ids_completeNodes (restore raw).nodes ids

theorem listed_opened : ∀ n ∈ (opened raw ids).nodes, Listed n.items :=
  listed_completeNodes (restore raw).nodes (selected_restore raw).nonempty
    (selected_restore raw).named ids

theorem chosen_opened : ∀ id, (opened raw ids).selected = some id → id ∈ (opened raw ids).ids := by
  rw [ids_opened]
  exact (selected_restore raw).chosen

theorem selected_opened_eq_none_iff :
    (opened raw ids).selected = none ↔ (opened raw ids).nodes = [] := by
  have listed := ids_opened raw ids
  constructor
  · intro unchosen
    rw [(selected_restore raw).unchosen unchosen] at listed
    exact List.map_eq_nil_iff.mp listed
  · intro none
    cases selected : (opened raw ids).selected with
    | none => rfl
    | some id =>
        have member := chosen_opened raw ids id selected
        rw [Canvas.ids, none] at member
        cases member

theorem withSelection_opened : (opened raw ids).withSelection = opened raw ids := by
  cases selected : (opened raw ids).selected with
  | some id =>
      rw [withSelection, selected, Option.some_or, ← selected]
  | none =>
      have none := (selected_opened_eq_none_iff raw ids).mp selected
      rw [withSelection, selected, none, List.head?_nil, Option.map_none, Option.none_or,
        ← selected, ← none]

/-- What was opened is stored and opened again without a change, and no identifier is drawn. -/
theorem complete_restore_opened (later : IdSupply) :
    (restore (opened raw ids).toJson).complete later = (opened raw ids, later) := by
  rw [restore_toJson (listed_opened raw ids) (chosen_opened raw ids), withSelection_opened,
    complete_sketch]

theorem reads_opened {nodes edges : List Json} (nodesField : raw.field "nodes" = .array nodes)
    (edgesField : raw.field "edges" = .array edges) :
    ((∃ j ∈ nodes, Refuses NodeDraft.read j) ∨ ∃ j ∈ edges, Refuses Edge.read j) ∧
        opened raw ids = (initial.complete ids).1 ∨
      List.Forall₂ Node.Reads nodes (opened raw ids).nodes ∧
        edges.map Edge.read = (opened raw ids).edges.map .ok := by
  rcases restore_cases nodesField edgesField with
    ⟨drafts, drawn, sameNodes, sameEdges, restored⟩ | ⟨refused, restored⟩
  · right
    rw [opened, restored]
    exact ⟨reads_completeNodes drafts nodes ids sameNodes, sameEdges⟩
  · left
    rw [opened, restored]
    exact ⟨refused, rfl⟩

/-- A workspace that is not open yet and whose store answers opens on what is stored. -/
theorem open?_opened {w : Workspace} {c : Workspace.Conditions}
    (closed : w.session? c.epoch = none) (answers : c.loadFault = none) :
    (w.open? c ids).result = .ok ⟨opened w.document ids, none, 0⟩ := by
  have opening : w.opening c = .ok w.document := by
    rw [Workspace.opening, Workspace.load, answers]
  rcases Workspace.open?_cases w c ids with ⟨s, shown, -⟩ | ⟨e, -, failed, -⟩ | ⟨j, -, found, opens⟩
  · rw [closed] at shown
    cases shown
  · rw [opening] at failed
    cases failed
  · rw [opening] at found
    cases found
    rw [opens]
    rfl

/-- Every stored value opens, on a canvas with named lists and a fitting selection, which is
given back when it is stored.  The nodes and edges of the value are those of the canvas, unless
one of them is refused and the default canvas is shown. -/
theorem opened_stable :
    (∀ (w : Workspace) (c : Workspace.Conditions), w.document = raw →
      w.session? c.epoch = none → c.loadFault = none →
        (w.open? c ids).result = .ok ⟨opened raw ids, none, 0⟩) ∧
    (∀ n ∈ (opened raw ids).nodes, Listed n.items) ∧
    (∀ id, (opened raw ids).selected = some id → id ∈ (opened raw ids).ids) ∧
    ((opened raw ids).selected = none ↔ (opened raw ids).nodes = []) ∧
    (∀ later, opened (opened raw ids).toJson later = opened raw ids) ∧
    ∀ nodes edges, raw.field "nodes" = .array nodes → raw.field "edges" = .array edges →
      ((∃ j ∈ nodes, Refuses NodeDraft.read j) ∨ ∃ j ∈ edges, Refuses Edge.read j) ∧
          opened raw ids = (initial.complete ids).1 ∨
        List.Forall₂ Node.Reads nodes (opened raw ids).nodes ∧
          edges.map Edge.read = (opened raw ids).edges.map .ok := by
  refine ⟨?_, listed_opened raw ids, chosen_opened raw ids, selected_opened_eq_none_iff raw ids,
    ?_, ?_⟩
  · intro w c stored closed answers
    rw [← stored]
    exact open?_opened ids closed answers
  · intro later
    have again := congrArg Prod.fst (complete_restore_opened raw ids later)
    exact again
  · intro nodes edges nodesField edgesField
    exact reads_opened raw ids nodesField edgesField

end Opening

end Canvas

end PromptCanvas
