import PromptCanvas.Canvas.Draft
import PromptCanvas.Proofs.Graph.Valid

/-! # Typed reading after the check

`Graph.ensure` reads a value by the types of its fields once the check has accepted it.
A value that is accepted always has these types, and what is read is the graph that the
check described (`ensure_eq`): the two readings never disagree. -/

set_option autoImplicit false

namespace PromptCanvas

namespace Json

theorem hasField_of_field {j : Json} {name : String} (present : j.field name ≠ .null) :
    j.hasField name = true := by
  cases j with
  | object fields =>
      cases found : fields.lookup name with
      | none => simp [field, found] at present
      | some v => simp [hasField, found]
  | _ => exact absurd rfl present

end Json

namespace Checked

section Fields

variable {α : Type} {j v : Json} {name : String} {read : Json → Checked α} {a : α}

theorem required_eq_ok (given : j.field name = v) (present : v ≠ .null) (reads : read v = .ok a) :
    required j name read = .ok a := by
  have has := Json.hasField_of_field (given ▸ present)
  simp only [required, has, if_true, given, reads, under]

theorem withDefault_eq_ok {default : α} (given : j.field name = v) (present : v ≠ .null)
    (reads : read v = .ok a) : withDefault j name default read = .ok a := by
  have has := Json.hasField_of_field (given ▸ present)
  simp only [withDefault, has, if_true, given, reads, under]

theorem all_mapIdx {f : Json → α} (js : List Json) (reads : ∀ j ∈ js, read j = .ok (f j)) :
    ∀ names : Nat → String,
      all (js.mapIdx fun i j => under (names i) (read j)) = .ok (js.map f) := by
  induction js with
  | nil => intro names; rfl
  | cons j js ih =>
      intro names
      rw [List.forall_mem_cons] at reads
      have others := ih reads.2 fun i => names (i + 1)
      rw [List.mapIdx_cons, all, others, reads.1]
      rfl

theorem items_eq_ok {f : Json → α} {js : List Json} (reads : ∀ j ∈ js, read j = .ok (f j)) :
    items read js = .ok (js.map f) := all_mapIdx js reads fun i => toString i

end Fields

end Checked

namespace Graph

section Typed

theorem readRole_of_exported {name : String} (exported : name ∈ ["system", "user", "assistant"]) :
    Canvas.readRole (.string name) = .ok ((Role.exportedOfName? name).getD .user) := by
  simp only [List.mem_cons, List.not_mem_nil, or_false] at exported
  rcases exported with rfl | rfl | rfl <;> rfl

theorem Node.read_of_described {j : Json} (described : NodeDescribed j) :
    Node.read j = .ok (nodeOf j) := by
  obtain ⟨object, ⟨id, idField, -⟩, ⟨role, exported, roleField⟩, ⟨label, labelField⟩,
    content, contentField, -⟩ := described
  have string : ∀ s, Checked.string (.string s) = .ok s := fun _ => rfl
  simp only [Node.read, Checked.record, object, if_true,
    Checked.required_eq_ok idField (by simp) (string id),
    Checked.required_eq_ok roleField (by simp) (readRole_of_exported exported),
    Checked.required_eq_ok labelField (by simp) (string label),
    Checked.required_eq_ok contentField (by simp) (string content), Checked.both, Except.map, nodeOf,
    idOf, stringField_eq idField, stringField_eq roleField, stringField_eq labelField,
    stringField_eq contentField]

theorem readEnd_eq_ok {j : Json} {name other s : String} (given : j.field name = .string s) :
    readEnd j name other = .ok s := by
  have present : j.field name ≠ .null := by simp [given]
  have has := Json.hasField_of_field present
  simp only [readEnd, has, Bool.not_true, Bool.false_and, Bool.false_eq_true, if_false]
  exact Checked.required_eq_ok given (by simp) rfl

theorem Edge.read_of_described {ids : List String} {j : Json} (described : EdgeDescribed ids j) :
    Edge.read j = .ok (edgeOf j) := by
  obtain ⟨object, ⟨source, sourceField, -⟩, ⟨target, targetField, -⟩, -⟩ := described
  simp only [Edge.read, Checked.record, object, if_true, readEnd_eq_ok sourceField,
    readEnd_eq_ok targetField, Checked.both, Except.map, edgeOf, stringField_eq sourceField,
    stringField_eq targetField]

theorem readTyped_of_described {j : Json} {nodes edges : List Json}
    (described : Described j nodes edges) : readTyped j = .ok (graphOf nodes edges) := by
  have nodesRead : readList Node.read (.array nodes) = .ok (nodes.map nodeOf) :=
    Checked.items_eq_ok fun k member => Node.read_of_described (described.node k member)
  have edgesRead : readList Edge.read (.array edges) = .ok (edges.map edgeOf) :=
    Checked.items_eq_ok fun k member => Edge.read_of_described (described.edge k member)
  simp only [readTyped, Checked.record, described.object, if_true,
    Checked.withDefault_eq_ok described.nodesField (by simp) nodesRead,
    Checked.withDefault_eq_ok described.edgesField (by simp) edgesRead, Checked.both, Except.map,
    graphOf]

end Typed

section Ensuring

/-- Why a value is not taken for a graph: the check refuses it, or it is accepted and has
fields of other types. -/
inductive Refusal where
  | invalid (reason : Reason)
  | mistyped (misfits : List Misfit)

def ensure (j : Json) : Except Refusal Graph :=
  match reason? j with
  | some reason => .error (.invalid reason)
  | none =>
      match readTyped j with
      | .ok g => .ok g
      | .error misfits => .error (.mistyped misfits)

theorem readTyped_of_read {j : Json} {g : Graph} (accepted : read j = .ok g) :
    readTyped j = .ok g := by
  obtain ⟨nodes, edges, described, -, rfl⟩ := (read_eq_ok_iff g).mp accepted
  exact readTyped_of_described described

/-- No value is accepted by the check and then refused for its types. -/
theorem ensure_eq (j : Json) : ensure j = (read j).mapError .invalid := by
  unfold ensure reason?
  cases checked : read j with
  | error reason => rfl
  | ok g =>
      simp only [readTyped_of_read checked]
      rfl

theorem ensure_eq_ok_iff {j : Json} {g : Graph} : ensure j = .ok g ↔ read j = .ok g := by
  rw [ensure_eq]
  cases read j with
  | error reason => simp [Except.mapError]
  | ok other => simp [Except.mapError]

theorem ensure_eq_error_iff {j : Json} {refusal : Refusal} :
    ensure j = .error refusal ↔ ∃ reason, read j = .error reason ∧ refusal = .invalid reason := by
  rw [ensure_eq]
  cases read j with
  | error reason => simp [Except.mapError, eq_comm]
  | ok other => simp [Except.mapError]

end Ensuring

end Graph

end PromptCanvas
