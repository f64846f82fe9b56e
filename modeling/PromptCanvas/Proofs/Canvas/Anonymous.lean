import PromptCanvas.Canvas.Draft
import PromptCanvas.Canvas.Transcript
import PromptCanvas.Proofs.Graph.Drawing

/-! # Canvases up to the identifiers of their items

`Canvas.anonymous` is a canvas without the identifiers of its list items.  What
they are does not matter to a transcript (`of_anonymous`), and completing a sketch
with other fresh identifiers gives the same canvas up to them
(`anonymous_complete`). -/

set_option autoImplicit false

namespace PromptCanvas

namespace Canvas

section Items

def Node.anonymous (n : Node) : Node := { n with items := n.items.map fun i => { i with id := "" } }

/-- The canvas with every item identifier left blank. -/
def anonymous (c : Canvas) : Canvas := { c with nodes := c.nodes.map Node.anonymous }

theorem content_anonymous (n : Node) : n.anonymous.content = n.content := by
  simp [Node.content, Node.anonymous, Function.comp_def]

end Items

section Walks

variable {f : Node → Node} (sameId : ∀ n, (f n).id = n.id)
  (samePosition : ∀ n, (f n).position = n.position) (nodes : List Node) (edges : List Edge)

include samePosition in
theorem sortPlaces_map (places : List Nat) :
    sortPlaces (nodes.map f) places = sortPlaces nodes places := by
  unfold sortPlaces
  congr 1
  funext i j
  rw [List.getElem?_map, List.getElem?_map]
  cases nodes[i]? <;> cases nodes[j]? <;> simp [samePosition]

include sameId in
theorem placesOf_map (id : String) : placesOf (nodes.map f) id = placesOf nodes id := by
  have named : ∀ i : Nat, ((nodes.map f)[i]?.map Node.id) = nodes[i]?.map Node.id := by
    intro i
    rw [List.getElem?_map, Option.map_map]
    exact congrArg (nodes[i]?.map ·) (funext sameId)
  rw [placesOf, placesOf, List.length_map]
  exact List.filter_congr fun i _ => by rw [named]

include sameId samePosition in
theorem successors_map (place : Nat) :
    successors (nodes.map f) edges place = successors nodes edges place := by
  rw [successors, successors, List.getElem?_map]
  cases nodes[place]? with
  | none => rfl
  | some n =>
      simp only [Option.map_some, sameId, sortPlaces_map samePosition]
      congr 1
      exact congrArg (List.flatMap · _) (funext fun e => placesOf_map sameId nodes e.target)

include sameId samePosition in
theorem roots_map : roots (nodes.map f) edges = roots nodes edges := by
  rw [roots, roots, List.length_map, sortPlaces_map samePosition]
  congr 2
  apply List.filter_congr
  intro i _
  rw [List.getElem?_map]
  cases nodes[i]? with
  | none => rfl
  | some n => simp only [Option.map_some, sameId]

theorem walkFrom_congr {nodes others : List Node}
    (same : ∀ place, successors nodes edges place = successors others edges place)
    (unvisited stack : List Nat) :
    walkFrom nodes edges unvisited stack = walkFrom others edges unvisited stack := by
  fun_induction walkFrom nodes edges unvisited stack with
  | case1 => rw [walkFrom]
  | case2 unvisited place rest fresh ih => rw [walkFrom, if_pos fresh, ih, same]
  | case3 unvisited place rest old ih => rw [walkFrom, if_neg old, ih]

include sameId samePosition in
/-- A change that keeps identifiers and positions keeps the order of the walk. -/
theorem walk_map : walk (nodes.map f) edges = (walk nodes edges).map f := by
  rw [walk, walk, roots_map sameId samePosition, List.length_map,
    walkFrom_congr edges (successors_map sameId samePosition nodes edges), List.map_filterMap]
  exact List.filterMap_congr fun place _ => List.getElem?_map

end Walks

end Canvas

namespace Transcript

section Anonymity

theorem stepsFrom_anonymous (nodes : List Canvas.Node) :
    ∀ n, stepsFrom n (nodes.map Canvas.Node.anonymous) = stepsFrom n nodes := by
  induction nodes with
  | nil => intro n; rfl
  | cons node rest ih =>
      intro n
      rw [List.map_cons, stepsFrom, stepsFrom, ih, Canvas.content_anonymous]
      rfl

theorem exported_anonymous (n : Canvas.Node) : n.anonymous.exported = n.exported := by
  rw [Canvas.Node.exported, Canvas.content_anonymous]
  rfl

theorem of_anonymous (c : Canvas) :
    of c.anonymous.nodes c.anonymous.edges = of c.nodes c.edges := by
  have walked := Canvas.walk_map (f := Canvas.Node.anonymous) (fun _ => rfl) (fun _ => rfl) c.nodes
    c.edges
  have exports : (c.nodes.map Canvas.Node.anonymous).map Canvas.Node.exported =
      c.nodes.map Canvas.Node.exported := by
    rw [List.map_map]
    exact List.map_congr_left fun n _ => exported_anonymous n
  simp only [of, Canvas.anonymous, List.isEmpty_map, walked, stepsFrom_anonymous, exports]

end Anonymity

end Transcript

namespace Canvas

section Completion

def NodeDraft.anonymous (d : NodeDraft) : Node :=
  ⟨d.id, d.role, d.label, d.items.map fun i => { i.toEntry with id := "" }, d.position⟩

def Sketch.anonymous (s : Sketch) : Canvas :=
  ⟨s.nodes.map NodeDraft.anonymous, s.edges, s.selected⟩

theorem toEntry_complete (d : Draft) (ids : IdSupply) : (d.complete ids).1.toEntry = d.toEntry := by
  rw [Draft.complete]
  split <;> rfl

theorem map_toEntry_completeAll (ds : List Draft) :
    ∀ ids, (Draft.completeAll ds ids).1.map Item.toEntry = ds.map Draft.toEntry := by
  induction ds with
  | nil => intro ids; rfl
  | cons d ds ih =>
      intro ids
      simp only [Draft.completeAll, List.map_cons, toEntry_complete, ih]

theorem anonymous_completeNode (d : NodeDraft) (ids : IdSupply) :
    (d.complete ids).1.anonymous = d.anonymous := by
  have items := congrArg (List.map fun e : Entry => ({ e with id := "" } : Item))
    (map_toEntry_completeAll d.items ids)
  rw [List.map_map, List.map_map] at items
  exact congrArg (Node.mk d.id d.role d.label · d.position) items

theorem map_anonymous_completeNodes (ds : List NodeDraft) :
    ∀ ids, (completeNodes ds ids).1.map Node.anonymous = ds.map NodeDraft.anonymous := by
  induction ds with
  | nil => intro ids; rfl
  | cons d ds ih =>
      intro ids
      simp only [completeNodes, List.map_cons, anonymous_completeNode, ih]

/-- What does not depend on the identifiers of the items is read off the drafts. -/
theorem map_completeNodes {β : Type} {f : Node → β} (same : ∀ n, f n.anonymous = f n)
    (ds : List NodeDraft) (ids : IdSupply) :
    (completeNodes ds ids).1.map f = ds.map fun d => f d.anonymous := by
  have blank := congrArg (List.map f) (map_anonymous_completeNodes ds ids)
  simp only [List.map_map, Function.comp_def, same] at blank
  exact blank

theorem anonymous_complete (s : Sketch) (ids : IdSupply) :
    (s.complete ids).1.anonymous = s.anonymous := by
  simp only [Sketch.complete, anonymous, map_anonymous_completeNodes, Sketch.anonymous]

theorem exported_complete (d : NodeDraft) (ids : IdSupply) :
    (d.complete ids).1.exported = d.exported := by
  have entries := map_toEntry_completeAll d.items ids
  simp only [NodeDraft.complete, Node.exported, Node.content, entries, NodeDraft.exported]

theorem map_exported_completeNodes (ds : List NodeDraft) :
    ∀ ids, (completeNodes ds ids).1.map Node.exported = ds.map NodeDraft.exported := by
  induction ds with
  | nil => intro ids; rfl
  | cons d ds ih =>
      intro ids
      simp only [completeNodes, List.map_cons, exported_complete, ih]

end Completion

end Canvas

end PromptCanvas
