import PromptCanvas.Proofs.Graph.Typed
import PromptCanvas.Proofs.Import.Sanitizing

/-! # Graphs without thoughts

Leaving out thoughts takes the fields with their keys from a value at any depth and leaves
everything else in its place (`at?_withoutThoughts`).  So it changes nothing that a graph is read
from: neither the graph nor the reason why there is none (`read_withoutThoughts`). -/

set_option autoImplicit false

namespace PromptCanvas

namespace Json

section Paths

/-- A step into a value, to a field of an object or to an item of an array. -/
inductive PathStep where
  | key (name : String)
  | index (i : Nat)
  deriving DecidableEq

def at? : Json → List PathStep → Option Json
  | v, [] => some v
  | .object fields, .key name :: path => (fields.lookup name).bind (·.at? path)
  | .array items, .index i :: path => items[i]?.bind (·.at? path)
  | _, _ :: _ => none

end Paths

end Json

namespace Document

section Fields

theorem itemsWithoutThoughts_eq_map (items : List Json) :
    itemsWithoutThoughts items = items.map withoutThoughts := by
  induction items with
  | nil => rfl
  | cons item items ih => rw [itemsWithoutThoughts, ih, List.map_cons]

theorem lookup_fieldsWithoutThoughts {key : String} (kept : key ∉ thoughtKeys)
    (fields : List (String × Json)) :
    (fieldsWithoutThoughts fields).lookup key = (fields.lookup key).map withoutThoughts := by
  induction fields with
  | nil => rfl
  | cons field fields ih =>
      obtain ⟨name, value⟩ := field
      rw [fieldsWithoutThoughts]
      by_cases same : key = name
      · subst same
        rw [if_neg (by simpa using kept), List.lookup_cons_self, List.lookup_cons_self]
        rfl
      · have other : (key == name) = false := by simpa using same
        split
        · rw [ih, List.lookup_cons, other]
        · rw [List.lookup_cons, other, ih, List.lookup_cons, other]

theorem lookup_fieldsWithoutThoughts_thought {key : String} (thought : key ∈ thoughtKeys)
    (fields : List (String × Json)) : (fieldsWithoutThoughts fields).lookup key = none := by
  induction fields with
  | nil => rfl
  | cons field fields ih =>
      obtain ⟨name, value⟩ := field
      rw [fieldsWithoutThoughts]
      split
      · exact ih
      · next kept =>
          have other : (key == name) = false := by
            rw [beq_eq_false_iff_ne]
            rintro rfl
            simp [thought] at kept
          rw [List.lookup_cons, other, ih]

theorem field_withoutThoughts {key : String} (kept : key ∉ thoughtKeys) (j : Json) :
    (withoutThoughts j).field key = withoutThoughts (j.field key) := by
  cases j with
  | object fields =>
      rw [withoutThoughts, Json.field, Json.field, lookup_fieldsWithoutThoughts kept]
      cases fields.lookup key with
      | none => simp [withoutThoughts]
      | some v => rfl
  | array items => simp [withoutThoughts, Json.field]
  | _ => simp [withoutThoughts, Json.field]

theorem string?_withoutThoughts (j : Json) : (withoutThoughts j).string? = j.string? := by
  cases j <;> rw [withoutThoughts] <;> first | rfl | simp

theorem isObject_withoutThoughts (j : Json) : (withoutThoughts j).isObject = j.isObject := by
  cases j <;> simp [withoutThoughts, Json.isObject]

theorem nonEmpty?_withoutThoughts (j : Json) :
    Graph.nonEmpty? (withoutThoughts j) = Graph.nonEmpty? j := by
  cases j <;> simp [withoutThoughts, Graph.nonEmpty?]

end Fields

section Paths

open Json (PathStep)

/-- No path leads through a thought any more, and every other path where it led. -/
theorem at?_withoutThoughts (v : Json) (path : List PathStep) :
    (withoutThoughts v).at? path =
      if ∃ key ∈ thoughtKeys, .key key ∈ path then none else (v.at? path).map withoutThoughts := by
  induction path generalizing v with
  | nil => simp [Json.at?]
  | cons step path ih =>
      have deeper : ∀ found : Option Json, (found.map withoutThoughts).bind (·.at? path) =
          if ∃ key ∈ thoughtKeys, .key key ∈ path then none
          else (found.bind (·.at? path)).map withoutThoughts := by
        intro found
        cases found with
        | none => simp
        | some w => exact ih w
      cases step with
      | index i =>
          have same : (∃ key ∈ thoughtKeys, PathStep.key key ∈ .index i :: path) ↔
              ∃ key ∈ thoughtKeys, .key key ∈ path := by simp
          simp only [same]
          cases v with
          | array items =>
              rw [withoutThoughts, itemsWithoutThoughts_eq_map, Json.at?, Json.at?,
                List.getElem?_map, deeper]
          | _ => simp [withoutThoughts, Json.at?]
      | key name =>
          by_cases thought : name ∈ thoughtKeys
          · rw [if_pos ⟨name, thought, List.mem_cons_self⟩]
            cases v with
            | object fields =>
                rw [withoutThoughts, Json.at?, lookup_fieldsWithoutThoughts_thought thought]
                rfl
            | _ => simp [withoutThoughts, Json.at?]
          · have same : (∃ key ∈ thoughtKeys, PathStep.key key ∈ .key name :: path) ↔
                ∃ key ∈ thoughtKeys, .key key ∈ path := by
              refine exists_congr fun key => and_congr_right fun member => ?_
              rw [List.mem_cons, PathStep.key.injEq, or_iff_right]
              rintro rfl
              exact thought member
            simp only [same]
            cases v with
            | object fields =>
                rw [withoutThoughts, Json.at?, Json.at?, lookup_fieldsWithoutThoughts thought,
                  deeper]
            | _ => simp [withoutThoughts, Json.at?]

end Paths

end Document

namespace Graph

open Document

section Thoughts

theorem readNode_withoutThoughts (seen : List String) (j : Json) :
    readNode seen (withoutThoughts j) = readNode seen j := by
  have field : ∀ name ∈ ["id", "role", "label", "content"],
      (withoutThoughts j).field name = withoutThoughts (j.field name) := by
    intro name member
    apply field_withoutThoughts
    revert name
    decide
  simp only [readNode, field "id" (by simp), field "role" (by simp), field "label" (by simp),
    field "content" (by simp), nonEmpty?_withoutThoughts, string?_withoutThoughts]

theorem readNodes_withoutThoughts (js : List Json) :
    ∀ seen, readNodes seen (js.map withoutThoughts) = readNodes seen js := by
  induction js with
  | nil => intro seen; rfl
  | cons j js ih =>
      intro seen
      simp only [List.map_cons, readNodes, readNode_withoutThoughts, ih]

theorem readEdge_withoutThoughts (ids : List String) (j : Json) :
    readEdge ids (withoutThoughts j) = readEdge ids j := by
  have source : (withoutThoughts j).field "from" = withoutThoughts (j.field "from") :=
    field_withoutThoughts (by decide) j
  have target : (withoutThoughts j).field "to" = withoutThoughts (j.field "to") :=
    field_withoutThoughts (by decide) j
  simp only [readEdge, source, target, nonEmpty?_withoutThoughts]

theorem readEdges_withoutThoughts (ids : List String) (js : List Json) :
    readEdges ids (js.map withoutThoughts) = readEdges ids js := by
  induction js with
  | nil => rfl
  | cons j js ih => simp only [List.map_cons, readEdges, readEdge_withoutThoughts, ih]

theorem readArrays_withoutThoughts (nodes edges : List Json) :
    readArrays (nodes.map withoutThoughts) (edges.map withoutThoughts) = readArrays nodes edges := by
  simp only [readArrays, List.isEmpty_map, readNodes_withoutThoughts, readEdges_withoutThoughts]

/-- The check comes to the same on a value without its thoughts. -/
theorem read_withoutThoughts (j : Json) : read (withoutThoughts j) = read j := by
  have nodes : (withoutThoughts j).field "nodes" = withoutThoughts (j.field "nodes") :=
    field_withoutThoughts (by decide) j
  have edges : (withoutThoughts j).field "edges" = withoutThoughts (j.field "edges") :=
    field_withoutThoughts (by decide) j
  rw [read, read, isObject_withoutThoughts, nodes, edges]
  cases j.field "nodes" with
  | array ns =>
      cases j.field "edges" with
      | array es =>
          simp only [withoutThoughts, itemsWithoutThoughts_eq_map, readArrays_withoutThoughts]
      | _ => simp only [withoutThoughts]
  | _ => simp only [withoutThoughts]

theorem reason?_withoutThoughts (j : Json) : reason? (withoutThoughts j) = reason? j := by
  rw [reason?, reason?, read_withoutThoughts]

theorem ensure_withoutThoughts (j : Json) : ensure (withoutThoughts j) = ensure j := by
  rw [ensure_eq, ensure_eq, read_withoutThoughts]

end Thoughts

end Graph

end PromptCanvas
