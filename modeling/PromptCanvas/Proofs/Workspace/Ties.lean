import PromptCanvas.Proofs.Workspace.Edits
import PromptCanvas.Proofs.Workspace.Ledger
import PromptCanvas.Proofs.Workspace.Run

/-! # Workspaces and ledgers

`Tied`: an open session is kept by its ledger, and one that is not open has none.  An
operation adds to the ledger just if it stops the generator (`Tied.perform`).
`KeepsCanvas`: what a workspace stores and shows stays as it is; the two ends of a
generation and the closing of a generator keep it. -/

set_option autoImplicit false

namespace PromptCanvas

namespace Workspace

section Stops

/-- The operations that end a generation when they take effect. -/
def Operation.isStop : Operation → Bool
  | .close => true
  | .draw _ => true
  | _ => false

def Task.isStop : Task → Bool
  | .close => true
  | .draw _ => true
  | _ => false

/-- Whether an operation with this result took effect.  One that failed only when its change to
an open session was to be saved did. -/
def tookEffect (w : Workspace) (c : Conditions) (result : Except Failure Answer) : Bool :=
  match result with
  | .ok _ => true
  | .error (.store _) => (w.session? c.epoch).isSome
  | .error _ => false

def stops (w : Workspace) (c : Conditions) (op : Operation) (ids : IdSupply) : Bool :=
  op.isStop && w.tookEffect c (w.perform c op ids).result

theorem isStop_of_task {op : Operation} {task : Task} (read : op.task = .ok task) :
    task.isStop = op.isStop := by
  cases op with
  | importText text confirmed =>
      obtain ⟨-, g, -, rfl⟩ := Operation.task_importText read
      rfl
  | reset confirmed =>
      obtain ⟨-, rfl⟩ := Operation.task_reset read
      rfl
  | _ =>
      cases read
      rfl

theorem isStop_of_error {op : Operation} {e : Failure} (read : op.task = .error e) :
    op.isStop = false := by
  cases op with
  | importText text confirmed => rfl
  | reset confirmed => rfl
  | _ => cases read

end Stops

section Tasks

variable {s : Session} {ids rest : IdSupply} {task : Task} {change : Change}

theorem run_stop (stop : task.isStop = true) (ok : task.run s ids = (.ok change, rest)) :
    ∃ c, change.session = s.supersede.withCanvas c := by
  cases task with
  | close =>
      cases ok
      exact ⟨s.canvas, rfl⟩
  | draw confirmed =>
      obtain ⟨g, -, rfl⟩ := Session.draw_eq_ok ok
      exact ⟨_, rfl⟩
  | _ => cases stop

theorem run_other (other : task.isStop = false) (ok : task.run s ids = (.ok change, rest)) :
    ∃ c, change.session = s.withCanvas c := by
  cases task with
  | close => cases other
  | draw confirmed => cases other
  | layout mode =>
      obtain ⟨place, rfl⟩ := Session.arrange_eq_ok (Prod.mk.inj ok).1
      exact ⟨_, rfl⟩
  | relabel id label =>
      obtain ⟨n, -, rfl⟩ := Session.update_eq_ok (Prod.mk.inj ok).1
      exact ⟨_, rfl⟩
  | relist id items =>
      obtain ⟨n, -, rfl⟩ := Session.update_eq_ok (Prod.mk.inj ok).1
      exact ⟨_, rfl⟩
  | remove id =>
      obtain ⟨n, -, rfl⟩ := Session.remove_eq_ok (Prod.mk.inj ok).1
      exact ⟨_, rfl⟩
  | connect source target =>
      obtain ⟨-, -, -, ⟨e, -, rfl⟩ | ⟨e, -, -, rfl⟩⟩ := Session.connect_eq_ok (Prod.mk.inj ok).1
      · exact ⟨s.canvas, rfl⟩
      · exact ⟨_, rfl⟩
  | select id =>
      obtain ⟨-, rfl⟩ := Session.select_eq_ok (Prod.mk.inj ok).1
      exact ⟨_, rfl⟩
  | _ =>
      cases ok
      exact ⟨_, rfl⟩

theorem run_stop_error (stop : task.isStop = true) {fault : StoreFault} :
    task.run s ids ≠ (.error (.store fault), rest) := by
  intro failed
  cases task with
  | close => cases failed
  | draw confirmed => exact Session.drawable_ne_store (Session.draw_eq_error failed)
  | _ => cases stop

/-- Nothing is generated in a session that was just opened, so a change that is to be saved
stops the generator only where a session was open before. -/
theorem pending_of_run (stop : task.isStop = true) (saves : change.saves = true)
    (ok : task.run s ids = (.ok change, rest)) : s.pending ≠ none := by
  intro none
  cases task with
  | close =>
      cases ok
      cases saves
  | draw confirmed =>
      obtain ⟨g, drawn, -⟩ := Session.draw_eq_ok ok
      obtain ⟨generated, pending, -⟩ := Session.drawable_eq_ok drawn
      rw [none] at pending
      cases pending
  | _ => cases stop

theorem Kept.run {log : List Mark} (kept : Kept s log) (ok : task.run s ids = (.ok change, rest)) :
    Kept change.session (if task.isStop then .stopped :: log else log) := by
  split
  · rename_i stop
    obtain ⟨c, same⟩ := run_stop stop ok
    rw [same]
    exact kept.stop.congr rfl rfl
  · rename_i other
    obtain ⟨c, same⟩ := run_other (by simpa using other) ok
    rw [same]
    exact kept.congr rfl rfl

end Tasks

/-- A session that is not open has an empty ledger, and one that is open is kept. -/
def Tied : Option Session → List Mark → Prop
  | none, log => log = []
  | some s, log => Kept s log

section Ties

variable {w : Workspace} {c : Conditions} {ids : IdSupply} {log : List Mark}

theorem Tied.numbered {session : Option Session} (tied : Tied session log) : Numbered log := by
  cases session with
  | none =>
      rw [show log = [] from tied]
      trivial
  | some s => exact Kept.numbered tied

theorem Tied.pending_iff {session : Option Session} (tied : Tied session log) (g : Graph) :
    session.bind Session.pending = some g ↔ Ready log g := by
  cases session with
  | none =>
      rw [show log = [] from tied]
      exact none_iff (fun _ => not_ready_nil) g
  | some s => exact Kept.pending tied g

theorem Tied.opens (tied : Tied (w.session? c.epoch) log) {s : Session}
    (opens : (w.open? c ids).result = .ok s) : Kept s log := by
  rcases open?_cases w c ids with ⟨t, found, same⟩ | ⟨e, -, -, same⟩ | ⟨j, none, -, same⟩
  · rw [same] at opens
    cases opens
    rw [found] at tied
    exact tied
  · rw [same] at opens
    cases opens
  · rw [same] at opens
    cases opens
    rw [none] at tied
    rw [show log = [] from tied]
    exact kept_new _

theorem tookEffect_commit {task : Task} {s : Session} {change : Change} {rest : IdSupply}
    (opens : (w.open? c ids).result = .ok s) (stop : task.isStop = true)
    (ran : task.run s (w.open? c ids).ids = (.ok change, rest)) :
    w.tookEffect c ((w.open? c ids).workspace.commit c change rest).result = true := by
  rcases commit_cases (w.open? c ids).workspace c rest change with
    ⟨stored, ends, -⟩ | ⟨fault, saves, -, -, ends⟩
  · rw [ends]
    rfl
  · have pending := pending_of_run stop saves ran
    rw [ends]
    rcases open?_cases w c ids with ⟨t, found, -⟩ | ⟨e, -, -, same⟩ | ⟨j, -, -, same⟩
    · simp [tookEffect, found]
    · rw [same] at opens
      cases opens
    · rw [same] at opens
      cases opens
      exact absurd rfl pending

theorem Tied.perform (tied : Tied (w.session? c.epoch) log) (op : Operation) (ids : IdSupply) :
    Tied ((w.perform c op ids).workspace.session? c.epoch)
      (if w.stops c op ids then .stopped :: log else log) := by
  rw [stops, Workspace.perform]
  cases read : op.task with
  | error e =>
      rw [isStop_of_error read]
      exact tied
  | ok task =>
      rw [← isStop_of_task read]
      rcases runTask_cases w c ids task with
        ⟨e, failed, ends⟩ | ⟨s, opens, ⟨e, rest, ran, ends⟩ | ⟨change, rest, ran, ends⟩⟩
      · -- A session that cannot be opened was not open, so a fault of the store is no effect here.
        have noEffect : w.tookEffect c (.error e) = false := by
          cases e <;> simp [tookEffect, session?_of_open?_error w c ids failed]
        simp only [ends, noEffect, Bool.and_false, Bool.false_eq_true, if_false]
        exact tied
      · -- A stop that is refused is not refused by the store.
        have noEffect : (task.isStop && w.tookEffect c (.error e)) = false := by
          cases stop : task.isStop with
          | false => rfl
          | true =>
              cases e with
              | store fault => exact absurd ran (run_stop_error stop)
              | _ => rfl
        simp only [ends, noEffect, Bool.false_eq_true, if_false, session?_open? opens]
        exact tied.opens opens
      · have changed := (tied.opens opens).run ran
        have effect : (task.isStop &&
            w.tookEffect c ((w.open? c ids).workspace.commit c change rest).result) =
              task.isStop := by
          cases stop : task.isStop with
          | false => rfl
          | true => exact tookEffect_commit opens stop ran
        simp only [ends, effect, session?_commit, if_true]
        exact changed

theorem session?_perform_ne (op : Operation) {epoch : Nat} (other : epoch ≠ c.epoch) :
    (w.perform c op ids).workspace.session? epoch = w.session? epoch := by
  rw [Workspace.perform]
  split
  · rfl
  · rename_i task _
    rcases runTask_cases w c ids task with
      ⟨e, -, ends⟩ | ⟨s, -, ⟨e, rest, -, ends⟩ | ⟨change, rest, -, ends⟩⟩
    · rw [ends]
    · rw [ends]
      exact session?_open?_ne w c ids other
    · rw [ends, session?_commit, if_neg other]
      exact session?_open?_ne w c ids other

end Ties

/-- A workspace stores and shows the same after as before; a session that was opened
meanwhile shows what the store holds. -/
structure KeepsCanvas (w after : Workspace) (c : Conditions) (ids : IdSupply) : Prop where
  stored : after.stored = w.stored
  canvas : ∀ epoch,
    (after.session? epoch).map Session.canvas = (w.session? epoch).map Session.canvas ∨
      w.session? epoch = none ∧ epoch = c.epoch ∧ ∃ j, w.opening c = .ok j ∧
        (after.session? epoch).map Session.canvas = some ((Canvas.restore j).complete ids).1

section Canvases

variable {w after : Workspace} {c : Conditions} {ids : IdSupply}

theorem keepsCanvas_refl (w : Workspace) (c : Conditions) (ids : IdSupply) :
    KeepsCanvas w w c ids := ⟨rfl, fun _ => .inl rfl⟩

theorem keepsCanvas_open? (w : Workspace) (c : Conditions) (ids : IdSupply) :
    KeepsCanvas w (w.open? c ids).workspace c ids := by
  rcases open?_cases w c ids with ⟨s, -, same⟩ | ⟨e, -, -, same⟩ | ⟨j, none, opening, same⟩
  · rw [same]
    exact keepsCanvas_refl w c ids
  · rw [same]
    exact keepsCanvas_refl w c ids
  · rw [same]
    refine ⟨rfl, ?_⟩
    intro epoch
    by_cases here : epoch = c.epoch
    · refine .inr ⟨here ▸ none, here, j, opening, ?_⟩
      rw [session?_putSession, if_pos here]
      rfl
    · refine .inl ?_
      rw [session?_putSession, if_neg here]

theorem KeepsCanvas.put (keeps : KeepsCanvas w after c ids) {epoch : Nat} {s t : Session}
    (found : after.session? epoch = some s) (same : t.canvas = s.canvas) :
    KeepsCanvas w (after.putSession epoch t) c ids := by
  refine ⟨keeps.stored, ?_⟩
  intro other
  have shown : ((after.putSession epoch t).session? other).map Session.canvas =
      (after.session? other).map Session.canvas := by
    rw [session?_putSession]
    split
    · rename_i here
      rw [here, found, Option.map_some, Option.map_some, same]
    · rfl
  rw [shown]
  exact keeps.canvas other

theorem KeepsCanvas.trans {last : Workspace} {others : IdSupply} (first : KeepsCanvas w after c ids)
    (second : KeepsCanvas after last c others) (shown : after.session? c.epoch ≠ none) :
    KeepsCanvas w last c ids := by
  refine ⟨second.stored.trans first.stored, ?_⟩
  intro epoch
  rcases second.canvas epoch with same | ⟨none, rfl, -⟩
  · rw [same]
    exact first.canvas epoch
  · exact absurd none shown

theorem keepsCanvas_begin (w : Workspace) (c : Conditions) (ids : IdSupply) :
    KeepsCanvas w (w.begin c ids).workspace c ids := by
  rcases begin_cases w c ids with ⟨e, ends⟩ | ⟨s, opens, ends⟩
  · rw [ends]
    exact keepsCanvas_refl w c ids
  · rw [ends]
    exact (keepsCanvas_open? w c ids).put (session?_open? opens) rfl

theorem keepsCanvas_close (w : Workspace) (c : Conditions) (ids : IdSupply) :
    KeepsCanvas w (w.perform c .close ids).workspace c ids := by
  rw [Workspace.perform, Operation.task]
  dsimp only
  rcases runTask_cases w c ids .close with
    ⟨e, -, ends⟩ | ⟨s, opens, ⟨e, rest, ran, ends⟩ | ⟨change, rest, ran, ends⟩⟩
  · rw [ends]
    exact keepsCanvas_refl w c ids
  · cases ran
  · cases ran
    rw [ends]
    exact (keepsCanvas_open? w c ids).put (session?_open? opens) rfl

theorem canvas_settle (s : Session) (ticket : Nat) (result : Except Generation.Failure Graph) :
    (s.settle ticket result).2.canvas = s.canvas := by
  unfold Session.settle
  split
  · rfl
  · split <;> rfl

theorem KeepsCanvas.finish (keeps : KeepsCanvas w after c ids) (epoch ticket : Nat)
    (result : Except Generation.Failure Graph) :
    KeepsCanvas w (after.finish epoch ticket result).2 c ids := by
  rw [Workspace.finish]
  split
  · exact keeps
  · rename_i s found
    exact keeps.put found (canvas_settle s ticket result)

end Canvases

end Workspace

end PromptCanvas
