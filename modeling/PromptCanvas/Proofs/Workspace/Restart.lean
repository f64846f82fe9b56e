import PromptCanvas.Proofs.Workspace.Saving

/-! # Restarts

Over a store that neither fails nor is written to by others, whatever is stored of a workspace
is what its session shows, but for a selection that the session may have gained when it was
opened (`InStep`).  So an operation that saves leaves the document of its canvas, and a new
service opens every workspace of which anything is stored as it was left
(`kept_through_restart`).  An operation that saves nothing leaves the store as it found it,
empty even, and then a new service starts over (`connected_unsaved`). -/

set_option autoImplicit false

namespace PromptCanvas

open Canvas (Listed Storable)

namespace Workspace

def Operation.Exact (op : Operation) : Prop :=
  ∀ role position, op = .add role position → position.Exact

namespace Session

section Changes

variable {s : Session} {change : Change}

theorem storable_update (storable : s.canvas.Storable) {id : String}
    {f : Canvas.Node → Canvas.Node} (ok : s.update id f = .ok change)
    (sameId : ∀ n, (f n).id = n.id) (samePosition : ∀ n, (f n).position = n.position)
    (listed : ∀ n ∈ s.canvas.nodes, Listed (f n).items) : change.session.canvas.Storable := by
  obtain ⟨n, -, rfl⟩ := update_eq_ok ok
  refine storable.withNodes (ids_updateFirst sameId _) ?_ ?_
  · intro m member
    rcases mem_updateFirst member with old | ⟨n, old, rfl⟩
    · exact storable.listed m old
    · exact listed n old
  · intro m member
    rcases mem_updateFirst member with old | ⟨n, old, rfl⟩
    · exact storable.exact m old
    · exact (samePosition n).symm ▸ storable.exact n old

theorem storable_remove (storable : s.canvas.Storable) {id : String}
    (ok : s.remove id = .ok change) : change.session.canvas.Storable := by
  obtain ⟨n, -, rfl⟩ := remove_eq_ok ok
  refine ⟨by rintro id ⟨⟩, ?_, ?_⟩
  · intro n member
    exact storable.listed n (List.mem_filter.mp member).1
  · intro n member
    exact storable.exact n (List.mem_filter.mp member).1

theorem storable_connect (storable : s.canvas.Storable) {source target : String}
    (ok : s.connect source target = .ok change) : change.session.canvas.Storable := by
  obtain ⟨-, -, -, ⟨e, -, rfl⟩ | ⟨e, -, -, rfl⟩⟩ := connect_eq_ok ok
  · exact storable
  · exact ⟨storable.chosen, storable.listed, storable.exact⟩

theorem storable_select (storable : s.canvas.Storable) {chosen : Option String}
    (ok : s.select chosen = .ok change) : change.session.canvas.Storable := by
  obtain ⟨named, rfl⟩ := select_eq_ok ok
  refine storable.select ?_
  intro id same
  obtain ⟨n, found⟩ := named id same
  exact Canvas.mem_ids_of_find? (node_eq_ok found)

theorem storable_arrange (storable : s.canvas.Storable) {mode : Json}
    (ok : s.arrange mode = .ok change) : change.session.canvas.Storable := by
  unfold arrange at ok
  split at ok
  · cases ok
  · rename_i nodes moved
    cases ok
    have exact := Canvas.exact_arrangeBy moved
    obtain ⟨place, rfl⟩ := arrangeBy_eq_map moved
    refine storable.withNodes ?_ ?_ exact
    · rw [List.map_map]
      rfl
    · rw [List.forall_mem_map]
      exact storable.listed

theorem storable_replace (s : Session) (g : Graph) (ids : IdSupply) :
    (s.replace g ids).1.session.canvas.Storable :=
  (Canvas.storable_layOut g).complete ids

theorem storable_add (storable : s.canvas.Storable) (role : Role) {position : Position}
    (exact : position.Exact) (ids : IdSupply) :
    (s.add role position ids).1.session.canvas.Storable := by
  constructor
  case chosen =>
    rintro id ⟨⟩
    rw [Canvas.ids]
    exact List.mem_map_of_mem (List.mem_append_right _ (List.mem_singleton_self _))
  case listed =>
    intro n member
    rcases List.mem_append.mp member with old | new
    · exact storable.listed n old
    · rw [List.mem_singleton.mp new]
      exact Canvas.listed_blank _
  case exact =>
    intro n member
    rcases List.mem_append.mp member with old | new
    · exact storable.exact n old
    · rw [List.mem_singleton.mp new]
      exact exact

theorem storable_relist (storable : s.canvas.Storable) {id : String} {items : List Json}
    {ids rest : IdSupply} (ok : s.relist id items ids = (.ok change, rest)) :
    change.session.canvas.Storable := by
  refine storable_update storable (Prod.mk.inj ok).1 (fun _ => rfl) (fun _ => rfl) ?_
  intro n _
  exact Canvas.listed_drafts items "" ids

end Changes

end Session

section Tasks

variable {s : Session} {ids rest : IdSupply} {change : Change}

theorem storable_run (storable : s.canvas.Storable) {op : Operation} (exact : op.Exact)
    {task : Task} (read : op.task = .ok task) (ok : task.run s ids = (.ok change, rest)) :
    change.session.canvas.Storable := by
  cases op with
  | importText text confirmed =>
      obtain ⟨-, g, -, rfl⟩ := Operation.task_importText read
      cases ok
      exact Session.storable_replace s g ids
  | reset confirmed =>
      obtain ⟨-, rfl⟩ := Operation.task_reset read
      cases ok
      exact Canvas.storable_empty
  | draw confirmed =>
      cases read
      obtain ⟨g, -, rfl⟩ := Session.draw_eq_ok ok
      exact Session.storable_replace _ g ids
  | layout mode =>
      cases read
      exact Session.storable_arrange storable (Prod.mk.inj ok).1
  | add role position =>
      cases read
      cases ok
      exact Session.storable_add storable role (exact role position rfl) ids
  | relabel id label =>
      cases read
      exact Session.storable_update storable (Prod.mk.inj ok).1 (fun _ => rfl) (fun _ => rfl)
        storable.listed
  | relist id items =>
      cases read
      exact Session.storable_relist storable ok
  | remove id =>
      cases read
      exact Session.storable_remove storable (Prod.mk.inj ok).1
  | connect source target =>
      cases read
      exact Session.storable_connect storable (Prod.mk.inj ok).1
  | select id =>
      cases read
      exact Session.storable_select storable (Prod.mk.inj ok).1
  | _ =>
      cases read
      cases ok
      exact storable

end Tasks

/-- Every session can be stored, and none is of a service to come. -/
structure Prepared (w : Workspace) (epoch : Nat) : Prop where
  storable : ∀ other s, w.session? other = some s → s.canvas.Storable
  past : ∀ other s, w.session? other = some s → other ≤ epoch

/-- What is stored is the canvas of the present session, which may have gained a selection when
it was opened. -/
structure InStep (w : Workspace) (epoch : Nat) : Prop extends Prepared w epoch where
  stored : ∀ d, w.stored = some d → ∃ kept : Canvas, kept.Storable ∧ d.read = kept.toJson ∧
    ∀ s, w.session? epoch = some s → s.canvas.withSelection = kept.withSelection

structure Conditions.Steady (c : Conditions) : Prop where
  saves : c.saveFault = none
  loads : c.loadFault = none

section Steps

variable {w : Workspace} {c : Conditions} {ids : IdSupply} {epoch : Nat}

theorem inStep_untouched (epoch : Nat) : untouched.InStep epoch := by
  refine ⟨⟨?_, ?_⟩, ?_⟩
  · intro other s found
    cases found
  · intro other s found
    cases found
  · intro d held
    cases held

theorem Prepared.put (prepared : w.Prepared epoch) {other : Nat} {s : Session}
    (past : other ≤ epoch) (storable : s.canvas.Storable) :
    (w.putSession other s).Prepared epoch := by
  constructor
  case storable =>
    intro place t found
    rw [session?_putSession] at found
    split at found
    · cases found
      exact storable
    · exact prepared.storable place t found
  case past =>
    intro place t found
    rw [session?_putSession] at found
    split at found
    · rename_i here
      exact here ▸ past
    · exact prepared.past place t found

theorem InStep.put (inStep : w.InStep epoch) {other : Nat} {s : Session} (past : other ≤ epoch)
    (storable : s.canvas.Storable)
    (shows : other = epoch → ∀ d, w.stored = some d → ∃ kept : Canvas, kept.Storable ∧
      d.read = kept.toJson ∧ s.canvas.withSelection = kept.withSelection) :
    (w.putSession other s).InStep epoch := by
  refine ⟨inStep.toPrepared.put past storable, ?_⟩
  intro d held
  by_cases here : other = epoch
  · obtain ⟨kept, storable, read, same⟩ := shows here d held
    refine ⟨kept, storable, read, ?_⟩
    intro t found
    rw [session?_putSession, if_pos here.symm] at found
    cases found
    exact same
  · obtain ⟨kept, storable, read, same⟩ := inStep.stored d held
    refine ⟨kept, storable, read, ?_⟩
    intro t found
    rw [session?_putSession, if_neg (Ne.symm here)] at found
    exact same t found

theorem InStep.replace (inStep : w.InStep epoch) {other : Nat} {s t : Session}
    (found : w.session? other = some s) (same : t.canvas = s.canvas) :
    (w.putSession other t).InStep epoch := by
  refine inStep.put (inStep.past other s found) (same ▸ inStep.storable other s found) ?_
  rintro rfl d held
  obtain ⟨kept, storable, read, shows⟩ := inStep.stored d held
  exact ⟨kept, storable, read, same ▸ shows s found⟩

theorem opening_of_steady (w : Workspace) (loads : c.loadFault = none) :
    w.opening c = .ok w.document := by
  simp only [opening, load, loads]

theorem InStep.opened (inStep : w.InStep epoch) (ids : IdSupply) :
    (opened w.document ids).canvas.Storable ∧
      ∀ d, w.stored = some d → ∃ kept : Canvas, kept.Storable ∧ d.read = kept.toJson ∧
        (opened w.document ids).canvas = kept.withSelection ∧
          ∀ s, w.session? epoch = some s → s.canvas.withSelection = kept.withSelection := by
  cases held : w.stored with
  | none =>
      refine ⟨?_, by rintro d ⟨⟩⟩
      rw [document, held]
      exact Canvas.storable_initial.complete ids
  | some d =>
      obtain ⟨kept, storable, read, same⟩ := inStep.stored d held
      have shown : (Workspace.opened w.document ids).canvas = kept.withSelection := by
        rw [document, held]
        dsimp only
        rw [read, Workspace.opened, storable.complete_restore]
      refine ⟨shown ▸ storable.withSelection, ?_⟩
      rintro d ⟨⟩
      exact ⟨kept, storable, read, shown, same⟩

theorem InStep.open? (inStep : w.InStep c.epoch) (steady : c.Steady) (ids : IdSupply) :
    (w.open? c ids).workspace.InStep c.epoch := by
  rcases open?_cases w c ids with ⟨s, -, opens⟩ | ⟨e, -, -, opens⟩ | ⟨j, -, opening, opens⟩
  · rw [opens]
    exact inStep
  · rw [opens]
    exact inStep
  · rw [opens]
    cases (opening_of_steady w steady.loads).symm.trans opening
    obtain ⟨storable, shows⟩ := inStep.opened ids
    refine inStep.put le_rfl storable ?_
    rintro - d held
    obtain ⟨kept, storable, read, shown, -⟩ := shows d held
    exact ⟨kept, storable, read, shown ▸ kept.withSelection_withSelection⟩

theorem InStep.commit (inStep : w.InStep c.epoch) (steady : c.Steady) {s : Session}
    (shown : w.session? c.epoch = some s) {change : Change}
    (storable : change.session.canvas.Storable)
    (unsaved : change.saves = false → change.session.canvas = s.canvas) (ids : IdSupply) :
    (w.commit c change ids).workspace.InStep c.epoch := by
  rw [Workspace.commit]
  cases saves : change.saves with
  | false => exact inStep.replace shown (unsaved saves)
  | true =>
      simp only [if_true, save, steady.saves]
      have put := inStep.toPrepared.put le_rfl storable
      refine ⟨⟨put.storable, put.past⟩, ?_⟩
      rintro d ⟨⟩
      refine ⟨change.session.canvas, storable, Document.read_exact c.storage storable.exact, ?_⟩
      intro t found
      have placed := (session?_putSession w c.epoch c.epoch change.session).symm.trans found
      rw [if_pos rfl] at placed
      cases placed
      rfl

theorem InStep.perform (inStep : w.InStep c.epoch) (steady : c.Steady) {op : Operation}
    (exact : op.Exact) (ids : IdSupply) : (w.perform c op ids).workspace.InStep c.epoch := by
  have opened := inStep.open? steady ids
  rw [Workspace.perform]
  cases read : op.task with
  | error e => exact inStep
  | ok task =>
      dsimp only
      rcases runTask_cases w c ids task with
        ⟨e, -, ends⟩ | ⟨s, opens, ⟨e, rest, -, ends⟩ | ⟨change, rest, ran, ends⟩⟩
      · rw [ends]
        exact inStep
      · rw [ends]
        exact opened
      · rw [ends]
        have shown := session?_open? opens
        have storable := storable_run (opened.storable c.epoch s shown) exact read ran
        exact opened.commit steady shown storable (canvas_of_run ran) rest

theorem InStep.begin (inStep : w.InStep c.epoch) (steady : c.Steady) (ids : IdSupply) :
    (w.begin c ids).workspace.InStep c.epoch := by
  rcases begin_cases w c ids with ⟨e, ends⟩ | ⟨s, opens, ends⟩
  · rw [ends]
    exact inStep
  · rw [ends]
    exact (inStep.open? steady ids).replace (session?_open? opens) rfl

theorem InStep.finish (inStep : w.InStep epoch) (other ticket : Nat)
    (result : Except Generation.Failure Graph) :
    (w.finish other ticket result).2.InStep epoch := by
  rw [Workspace.finish]
  split
  · exact inStep
  · rename_i s found
    exact inStep.replace found (canvas_settle s ticket result)

theorem InStep.restart (inStep : w.InStep epoch) : w.InStep (epoch + 1) := by
  have closed : ∀ s, w.session? (epoch + 1) ≠ some s := by
    intro s found
    exact Nat.not_succ_le_self epoch (inStep.past (epoch + 1) s found)
  refine ⟨⟨inStep.storable, ?_⟩, ?_⟩
  · intro other s found
    exact Nat.le_succ_of_le (inStep.past other s found)
  · intro d held
    obtain ⟨kept, storable, read, -⟩ := inStep.stored d held
    exact ⟨kept, storable, read, fun s found => absurd found (closed s)⟩

/-- A new service shows what the last one showed of a workspace of which anything is stored. -/
theorem InStep.view (inStep : w.InStep epoch) {s : Session} (shown : w.session? epoch = some s)
    (held : w.stored ≠ none) (later : epoch < c.epoch) (loads : c.loadFault = none)
    (ids : IdSupply) : (w.perform c .view ids).result = .ok (.canvas s.canvas.withSelection) := by
  obtain ⟨d, held⟩ := Option.ne_none_iff_exists'.mp held
  obtain ⟨-, shows⟩ := inStep.opened ids
  obtain ⟨kept, -, -, opened, same⟩ := shows d held
  rcases open?_cases w c ids with ⟨t, found, -⟩ | ⟨e, -, opening, -⟩ | ⟨j, -, opening, opens⟩
  · exact absurd (inStep.past c.epoch t found) (Nat.not_le.mpr later)
  · cases (opening_of_steady w loads).symm.trans opening
  · cases (opening_of_steady w loads).symm.trans opening
    rw [Workspace.perform, Operation.task]
    simp only [runTask, opens, Task.run, Session.look, Workspace.commit, opened, same s shown]
    rfl

end Steps

end Workspace

namespace Studio

open Workspace (Answer Operation)

/-- An event in which no store fails and every position that is given is one of the format. -/
def Event.Steady : Event → Prop
  | .perform _ op => op.Exact
  | .faults save load => save = none ∧ load = none
  | _ => True

section Runs

/-- As long as the store does not fail, every workspace stays in step with its document. -/
theorem lasts_inStep : Lasts (fun c w => c.Steady ∧ w.InStep c.epoch) fun _ e => e.Steady := by
  constructor
  case perform =>
    rintro s name op exact ⟨steady, inStep⟩
    exact ⟨steady, inStep.perform steady exact s.ids⟩
  case begin =>
    rintro c w ids ⟨steady, inStep⟩
    exact ⟨steady, inStep.begin steady ids⟩
  case finish =>
    rintro c w epoch ticket service request response ⟨steady, inStep⟩
    exact ⟨steady, inStep.finish epoch ticket _⟩
  case faults =>
    rintro s save load w none ⟨-, inStep⟩
    exact ⟨⟨none.1, none.2⟩, inStep⟩
  case restart =>
    rintro s w ⟨steady, inStep⟩
    exact ⟨⟨steady.saves, steady.loads⟩, inStep.restart⟩

theorem inStep_run {s : Studio} (inStep : s.Everywhere fun c w => c.Steady ∧ w.InStep c.epoch)
    {events : List Event} (steady : ∀ e ∈ events, e.Steady) :
    (s.run events).Everywhere fun c w => c.Steady ∧ w.InStep c.epoch := by
  induction events generalizing s with
  | nil => exact inStep
  | cons e events ih =>
      have first := lasts_inStep.next inStep (steady e List.mem_cons_self)
      exact ih first fun e member => steady e (List.mem_cons_of_mem _ member)

variable {storage : Workspace.Storage} {service : Generation.Service} {events : List Event}

/-- After an operation that succeeds and saves, the document of its workspace is that of the canvas
that it leaves, and one that does not save leaves the canvas and the document that it found.  As
soon as anything is stored of a workspace, a new service opens it as it was left. -/
theorem kept_through_restart (steady : ∀ e ∈ events, e.Steady) (name : String) {op : Operation}
    (exact : op.Exact) {answer : Answer} {after : Studio}
    (done : ((start storage service).run events).perform name op = (.ok answer, after)) :
    ∃ canvas session, ((start storage service).run events).shown? name = some canvas ∧
      after.session? name = some session ∧
        (op.saves canvas = true → (after.workspace name).document = session.canvas.toJson) ∧
        (op.saves canvas = false → session.canvas = canvas ∧
          (after.workspace name).stored =
            (((start storage service).run events).workspace name).stored) ∧
        (op.saves canvas = true ∨ (after.workspace name).stored ≠ none →
          (after.restart.perform name .view).1 = .ok (.canvas session.canvas.withSelection)) := by
  have started : (start storage service).Everywhere fun c w => c.Steady ∧ w.InStep c.epoch :=
    fun _ => ⟨⟨rfl, rfl⟩, Workspace.inStep_untouched 0⟩
  have reached := inStep_run started steady name
  generalize (start storage service).run events = s at reached done
  obtain ⟨steady, inStep⟩ := reached
  obtain ⟨ok, rfl⟩ := Prod.mk.inj done
  have ended := inStep.perform steady exact s.ids
  obtain ⟨before, session, opens, shown, stores, keeps⟩ := Workspace.perform_saved ok steady.saves
  generalize (s.workspace name).perform s.conditions op s.ids = step at ended shown stores keeps ⊢
  have left : (s.leave name step).workspace name = step.workspace := by
    rw [workspace_leave, if_pos rfl]
  refine ⟨before.canvas, session, ?_, ?_, ?_, ?_, ?_⟩
  · rw [shown?, opens]
    rfl
  · rw [Studio.session?, left]
    exact shown
  · intro saved
    rw [left, Workspace.document, stores saved]
    exact Workspace.Document.read_exact _ (ended.storable _ session shown).exact
  · intro unsaved
    rw [left]
    exact (keeps unsaved).symm
  · intro some
    rw [left] at some
    have held : step.workspace.stored ≠ none := by
      rcases some with saved | held
      · rw [stores saved]
        exact Option.some_ne_none _
      · exact held
    have same : (s.leave name step).restart.workspace name = step.workspace := left
    have newer : s.conditions.epoch < (s.leave name step).restart.conditions.epoch :=
      Nat.lt_succ_self _
    rw [Studio.perform, same]
    exact ended.view shown held newer steady.loads _

def busy : List Event :=
  [.perform "w" (.add .user .origin), .hold "t" "w" ⟨"Greet", some "key"⟩ (.reply .none),
    .perform "w" .close]

theorem kept_through_restart_busy :
    (∀ e ∈ busy, e.Steady) ∧ (Operation.select none).Exact ∧
      ∃ session : Workspace.Session,
        ((((start .files ⟨"", "m"⟩).run busy).perform "w" (.select none)).2.workspace
          "w").document = session.canvas.toJson ∧
        ((((start .files ⟨"", "m"⟩).run busy).perform "w" (.select none)).2.restart.perform
          "w" .view).1 = .ok (.canvas session.canvas.withSelection) := by
  have steady : ∀ e ∈ busy, e.Steady := by
    intro e member
    simp only [busy, List.mem_cons, List.not_mem_nil, or_false] at member
    rcases member with rfl | rfl | rfl
    · rintro role position ⟨⟩
      exact ⟨.finite false (by decide +kernel) (by decide +kernel),
        .finite false (by decide +kernel) (by decide +kernel)⟩
    · trivial
    · rintro role position ⟨⟩
  have exact : (Operation.select none).Exact := by
    rintro role position ⟨⟩
  obtain ⟨canvas, session, -, -, document, -, opens⟩ :=
    kept_through_restart steady "w" exact rfl
  exact ⟨steady, exact, session, document rfl, opens (.inl rfl)⟩

/-- Two nodes of a new workspace that are joined already: nothing is stored, and a new service
starts over with items of its own. -/
theorem connected_unsaved :
    ∃ answer after session,
      (start .memory ⟨"", "m"⟩).perform "w" (.connect "n1" "n2") = (.ok answer, after) ∧
        after.session? "w" = some session ∧
          (after.workspace "w").document ≠ session.canvas.toJson ∧
            (after.restart.perform "w" .view).1 ≠ .ok (.canvas session.canvas.withSelection) := by
  refine ⟨_, _, _, rfl, rfl, by rintro ⟨⟩, ?_⟩
  intro same
  have shown := Answer.canvas.inj (Except.ok.inj same)
  revert shown
  decide +kernel

end Runs

end Studio

end PromptCanvas
