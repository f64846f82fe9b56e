import PromptCanvas.Proofs.Import.Chain
import PromptCanvas.Proofs.Outline.Rereading
import PromptCanvas.Proofs.Outline.TrimmedLines

/-! # The lines of a content

`relined` writes a content anew from its lines, without the blanks around them.  The check of a
chain does not see the difference (`read_relined`), nor does the layout of a graph
(`layOut_relined`), so that chains with the same lines in their contents are drawn alike
(`drawn_congr`). -/

set_option autoImplicit false

namespace PromptCanvas

open Outline (trimmedLines)

/-- A text of the same lines, without the blanks around them. -/
def relined (text : String) : String :=
  String.ofList (List.intercalate ['\n'] (trimmedLines text.toList))

section Texts

theorem trimmedLines_relined (text : String) :
    trimmedLines (relined text).toList = trimmedLines text.toList := by
  rw [relined, String.toList_ofList]
  refine Outline.trimmedLines_of_lines fun line member => ?_
  obtain ⟨unbroken, trimmed, nonempty⟩ := Outline.mem_trimmedLines member
  exact ⟨unbroken, trimmed, nonempty⟩

theorem isBlankString_eq (text : String) :
    Text.isBlankString text = (trimmedLines text.toList).isEmpty := by
  rw [Bool.eq_iff_iff, Text.isBlankString_iff, List.isEmpty_iff]
  refine ⟨Outline.trimmedLines_of_blank, fun none => ?_⟩
  by_contra solid
  exact Outline.trimmedLines_ne_nil solid none

theorem isBlankString_relined (text : String) :
    Text.isBlankString (relined text) = Text.isBlankString text := by
  rw [isBlankString_eq, isBlankString_eq, trimmedLines_relined]

theorem read_outline_relined (text : String) : Outline.read (relined text) = Outline.read text := by
  rw [Outline.read, Outline.read, trimmedLines_relined]

end Texts

namespace Graph

def Node.relined (n : Node) : Node := { n with content := PromptCanvas.relined n.content }

def relined (g : Graph) : Graph := { g with nodes := g.nodes.map Node.relined }

section Drawing

theorem ids_relined (g : Graph) : g.relined.ids = g.ids := by
  rw [ids, relined, List.map_map]
  rfl

theorem named?_relined (g : Graph) (id : String) :
    g.relined.named? id = (g.named? id).map Node.relined := by
  rw [named?, relined, ← List.map_reverse, List.find?_map]
  rfl

theorem nodes_layOut_relined (g : Graph) : g.relined.layOut.nodes = g.layOut.nodes := by
  have drafts : ∀ (n : Node) (position : Position),
      draftAt n.relined position = draftAt n position := by
    intro n position
    rw [draftAt, draftAt, Node.relined, read_outline_relined]
  have pairs : g.relined.pairs = g.pairs := rfl
  rw [nodes_layOut, nodes_layOut]
  simp only [drawnIds, place, ids_relined, pairs, named?_relined, Option.map_map,
    Function.comp_def, drafts]

theorem layOut_relined (g : Graph) : g.relined.layOut = g.layOut := by
  refine Canvas.Sketch.eq_of_fields (nodes_layOut_relined g) rfl ?_
  rw [selected_layOut, selected_layOut, nodes_layOut_relined]

end Drawing

section Reading

theorem checkStructure_relined (g : Graph) :
    checkStructure g.relined = (checkStructure g).map relined := by
  have length : g.relined.nodes.length = g.nodes.length := List.length_map ..
  have edges : g.relined.edges = g.edges := rfl
  have orphan : g.relined.orphan? = g.orphan? := by
    rw [orphan?, orphan?, length, ids_relined, edges]
  have acyclic : g.relined.isAcyclic = g.isAcyclic := by
    rw [isAcyclic, isAcyclic, length, ids_relined, pairs, pairs, edges]
  rw [checkStructure, checkStructure, orphan, acyclic]
  cases g.orphan? with
  | some id => rfl
  | none => cases g.isAcyclic <;> rfl

end Reading

end Graph

namespace Import

def Step.relined (s : Step) : Step := { s with content := PromptCanvas.relined s.content }

section Chains

theorem readNode_relined (s : Step) (n : Nat) (seen : List String) :
    Graph.readNode seen (s.relined.toJson n) =
      (Graph.readNode seen (s.toJson n)).map Graph.Node.relined := by
  have named : Graph.nonEmpty? (.string (Step.idOf n)) = some (Step.idOf n) :=
    (Graph.nonEmpty?_eq_some_iff _ _).mpr ⟨rfl, Step.idOf_ne_empty n⟩
  have blank : Text.isBlankString s.relined.content = Text.isBlankString s.content :=
    isBlankString_relined s.content
  obtain ⟨id, role, label, content⟩ := s.fields_toJson n
  obtain ⟨sameId, sameRole, sameLabel, written⟩ := s.relined.fields_toJson n
  have kept : s.relined.role = s.role ∧ s.relined.label = s.label := ⟨rfl, rfl⟩
  rw [Graph.readNode, Graph.readNode]
  simp only [id, role, label, content, sameId, sameRole, sameLabel, written, named, kept,
    Json.string?, Option.bind_some, blank]
  by_cases fresh : seen.contains (Step.idOf n) = true
  · rw [if_pos fresh, if_pos fresh]
    rfl
  · rw [if_neg fresh, if_neg fresh]
    cases Role.exportedOfName? s.role with
    | none => rfl
    | some role =>
        simp only
        split <;> rfl

theorem readNodes_relined (steps : List Step) : ∀ n seen,
    Graph.readNodes seen (Step.nodesFrom n (steps.map Step.relined)) =
      (Graph.readNodes seen (Step.nodesFrom n steps)).map (List.map Graph.Node.relined) := by
  induction steps with
  | nil => intro n seen; rfl
  | cons s steps ih =>
      intro n seen
      rw [List.map_cons, Step.nodesFrom, Step.nodesFrom, Graph.readNodes, Graph.readNodes,
        readNode_relined]
      cases Graph.readNode seen (s.toJson n) with
      | error reason => rfl
      | ok node =>
          have later := ih (n + 1) (node.id :: seen)
          have id : node.relined.id = node.id := rfl
          simp only [Except.map, id, later]
          cases Graph.readNodes (node.id :: seen) (Step.nodesFrom (n + 1) steps) <;> rfl

theorem read_relined (steps : List Step) :
    Graph.read (Step.chain (steps.map Step.relined)) =
      (Graph.read (Step.chain steps)).map Graph.relined := by
  have arrays : ∀ steps : List Step, Graph.read (Step.chain steps) =
      Graph.readArrays (Step.nodesFrom 1 steps)
        ((List.range (steps.length - 1)).map fun i => Step.link (i + 1)) := fun _ => rfl
  have empty : (Step.nodesFrom 1 (steps.map Step.relined)).isEmpty =
      (Step.nodesFrom 1 steps).isEmpty := by
    cases steps <;> rfl
  rw [arrays, arrays, List.length_map, Graph.readArrays, Graph.readArrays, empty,
    readNodes_relined]
  cases (Step.nodesFrom 1 steps).isEmpty with
  | true => rfl
  | false =>
      cases Graph.readNodes [] (Step.nodesFrom 1 steps) with
      | error reason => rfl
      | ok nodes =>
          have ids : (nodes.map Graph.Node.relined).map Graph.Node.id =
              nodes.map Graph.Node.id := by
            rw [List.map_map]
            rfl
          simp only [Except.map, Bool.false_eq_true, if_false, ids]
          cases Graph.readEdges (nodes.map Graph.Node.id)
              ((List.range (steps.length - 1)).map fun i => Step.link (i + 1)) with
          | error reason => rfl
          | ok edges => exact Graph.checkStructure_relined ⟨nodes, edges⟩

/-- Chains with the same lines in their contents are refused or drawn alike. -/
theorem drawn_congr {steps others : List Step}
    (same : steps.map Step.relined = others.map Step.relined) :
    (Graph.read (Step.chain steps)).map Graph.layOut =
      (Graph.read (Step.chain others)).map Graph.layOut := by
  have drawn : ∀ steps : List Step, (Graph.read (Step.chain steps)).map Graph.layOut =
      (Graph.read (Step.chain (steps.map Step.relined))).map Graph.layOut := by
    intro steps
    rw [read_relined]
    cases Graph.read (Step.chain steps) with
    | error reason => rfl
    | ok g => exact congrArg Except.ok (Graph.layOut_relined g).symm
  rw [drawn, same, ← drawn]

end Chains

end Import

end PromptCanvas
