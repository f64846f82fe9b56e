import PromptCanvas.Proofs.Canvas.Compilation
import PromptCanvas.Proofs.Import.Sanitizing
import PromptCanvas.Proofs.Workspace.Edits
import PromptCanvas.Proofs.Workspace.Protocol

/-! # Drawing a graph in a workspace

Importing a text and drawing a generated graph end alike: the session shows the layout of
a graph, its list items newly identified (`Studio.Draws`).  Nothing of the session or of
its past stands in that canvas, so two such ends for one graph differ in item identifiers
only (`Draws.same`). -/

set_option autoImplicit false

namespace PromptCanvas

namespace Graph

section Nodes

variable {g : Graph}

theorem nodes_exported_perm (distinct : g.ids.Nodup) :
    g.layOut.exported.nodes.Perm (g.nodes.map Node.redrawn) := by
  have drawn : g.layOut.exported.nodes = g.drawnNodes.map Node.redrawn := by
    rw [nodes_exported, drawnNodes, List.map_filterMap]
  rw [drawn]
  exact (drawnNodes_perm distinct).map Node.redrawn

end Nodes

end Graph

namespace Workspace

section Texts

theorem graphOfText_of_jsonGraph {text : String} {c : Json}
    (found : Import.jsonGraph text.toList = .ok (some c)) :
    graphOfText text = (Graph.read c).mapError .invalidFlow := by
  rw [graphOfText, Import.read_of_jsonGraph found]
  cases read : Graph.read c with
  | error reason => simp only [read, Except.mapError]
  | ok g => simp only [read, Except.mapError]

end Texts

section Serving

structure Conditions.Serves (c : Conditions) : Prop where
  load : ∀ fault, c.loadFault = some fault → fault.isOverlookedOnLoad = true
  save : ∀ fault, c.saveFault = some fault → fault.isOverlookedOnSave = true

variable {w : Workspace} {c : Conditions}

theorem exists_open? (serves : c.Serves) (w : Workspace) (ids : IdSupply) :
    ∃ s, (w.open? c ids).result = .ok s := by
  have opens : ∀ e, w.opening c ≠ .error e := by
    intro e failed
    unfold opening load at failed
    cases faulty : c.loadFault with
    | none => simp [faulty] at failed
    | some fault => simp [faulty, serves.load fault faulty] at failed
  rcases open?_cases w c ids with ⟨s, -, opened⟩ | ⟨e, -, failed, -⟩ | ⟨j, -, -, opened⟩
  · exact ⟨s, by rw [opened]⟩
  · exact absurd failed (opens e)
  · exact ⟨_, by rw [opened]⟩

theorem runTask_of_run (serves : c.Serves) {ids rest : IdSupply} {task : Task} {s : Session}
    {change : Change} (opens : (w.open? c ids).result = .ok s)
    (ran : task.run s (w.open? c ids).ids = (.ok change, rest)) :
    (w.runTask c task ids).result = .ok change.answer ∧
      (w.runTask c task ids).workspace.session? c.epoch = some change.session := by
  rcases runTask_cases w c ids task with ⟨e, failed, -⟩ | ⟨t, opened, ends⟩
  · rw [opens] at failed
    cases failed
  · rw [opens] at opened
    cases opened
    rcases ends with ⟨e, others, failed, -⟩ | ⟨other, others, same, ends⟩
    · rw [ran] at failed
      cases failed
    · rw [ran] at same
      cases same
      rw [ends, session?_commit, if_pos rfl]
      exact ⟨result_commit _ _ serves.save change, rfl⟩

end Serving

end Workspace

namespace Studio

open Workspace (Operation Task Session)

section Drawing

variable {s : Studio} {name : String} {op : Operation} {g : Graph}

theorem perform_of_task {task : Task} (asked : op.task = .ok task) :
    s.perform name op =
      (((s.workspace name).runTask s.conditions task s.ids).result,
        s.leave name ((s.workspace name).runTask s.conditions task s.ids)) := by
  simp only [perform, Workspace.perform, asked]

/-- The operation is carried out, and the session then shows the layout of the graph. -/
def Draws (s : Studio) (name : String) (op : Operation) (g : Graph) : Prop :=
  ∃ session ids, (s.perform name op).1 = .ok (.canvas session.canvas) ∧
    (s.perform name op).2.session? name = some session ∧
      session.canvas = (g.layOut.complete ids).1

theorem draws_of_task (serves : s.conditions.Serves) (task : Task) (asked : op.task = .ok task)
    (runs : ∀ session, ((s.workspace name).open? s.conditions s.ids).result = .ok session →
      ∃ before : Session, ∀ ids, task.run session ids =
        (.ok (before.replace g ids).1, (before.replace g ids).2)) : s.Draws name op g := by
  obtain ⟨session, opens⟩ := Workspace.exists_open? serves (s.workspace name) s.ids
  obtain ⟨before, runs⟩ := runs session opens
  have ran := runs ((s.workspace name).open? s.conditions s.ids).ids
  obtain ⟨result, shown⟩ := Workspace.runTask_of_run serves opens ran
  refine ⟨(before.replace g ((s.workspace name).open? s.conditions s.ids).ids).1.session,
    ((s.workspace name).open? s.conditions s.ids).ids, ?_, ?_, rfl⟩
  · rw [perform_of_task asked]
    exact result
  · rw [perform_of_task asked]
    exact (session?_leave s name name _ _).trans ((if_pos rfl).trans shown)

theorem draws_importText (serves : s.conditions.Serves) (name : String) {text : String}
    (read : Workspace.graphOfText text = .ok g) : s.Draws name (.importText text true) g := by
  apply draws_of_task serves (.replace g)
  · simp [Operation.task, read, Except.map]
  · intro session opens
    exact ⟨session, fun ids => rfl⟩

theorem perform_importText_error {text : String} {e : Workspace.Failure}
    (refused : Workspace.graphOfText text = .error e) :
    (s.perform name (.importText text true)).1 = .error e := by
  simp [perform, Workspace.perform, Operation.task, refused, Except.map]

theorem draws_draw (serves : s.conditions.Serves) {session : Session}
    (shown : s.session? name = some session) (pending : session.pending = some g)
    (valid : g.Valid) : s.Draws name (.draw true) g := by
  apply draws_of_task serves (.draw true) rfl
  intro opened opens
  rw [Workspace.open?_of_session s.ids shown] at opens
  cases opens
  have drawn : session.drawable true = .ok g := by
    simp [Session.drawable, pending, valid.read_toJson]
  exact ⟨session.supersede, fun ids => by simp only [Task.run, Session.draw, drawn]⟩

/-- Two drawings of one graph differ in the identifiers of list items only. -/
theorem Draws.same {t : Studio} {other : String} {op' : Operation} (first : s.Draws name op g)
    (second : t.Draws other op' g) :
    ∃ left right : Session, (s.perform name op).2.session? name = some left ∧
      (t.perform other op').2.session? other = some right ∧
        left.canvas.anonymous = right.canvas.anonymous := by
  obtain ⟨left, ids, -, shown, drawn⟩ := first
  obtain ⟨right, others, -, shown', drawn'⟩ := second
  refine ⟨left, right, shown, shown', ?_⟩
  rw [drawn, drawn']
  exact Canvas.anonymous_complete_congr g.layOut ids others

end Drawing

end Studio

end PromptCanvas
