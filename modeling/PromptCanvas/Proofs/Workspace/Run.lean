import Mathlib.Data.List.Basic
import PromptCanvas.Workspace.Studio

/-! # Runs of a studio

`Studio.Event` is whatever can happen to a studio, `Studio.run` what a list of events
makes of it, and `Studio.reply` what an event is answered.  An operation opens a session,
runs a task in it and saves what the task changed: `open?_cases` and `runTask_cases` say
once all that can come of it. -/

set_option autoImplicit false

namespace PromptCanvas

namespace Workspace

section Sessions

variable (w : Workspace) (c : Conditions) (ids : IdSupply)

theorem lookup_filter_ne {κ α : Type} [BEq κ] [LawfulBEq κ] (entries : List (κ × α))
    {key other : κ} (different : other ≠ key) :
    (entries.filter fun e => e.1 != key).lookup other = entries.lookup other := by
  induction entries with
  | nil => rfl
  | cons e entries ih =>
      by_cases same : e.1 = key
      · have skipped : (other == e.1) = false := by simpa [same] using different
        rw [List.filter_cons_of_neg (by simp [same]), ih, List.lookup_cons, skipped]
      · rw [List.filter_cons_of_pos (by simpa using same), List.lookup_cons, List.lookup_cons, ih]

@[simp]
theorem session?_putSession (epoch other : Nat) (s : Session) :
    (w.putSession epoch s).session? other =
      if other = epoch then some s else w.session? other := by
  rw [session?, putSession]
  dsimp only
  by_cases same : other = epoch
  · rw [if_pos same, same, List.lookup_cons_self]
  · have skipped : (other == epoch) = false := by simpa using same
    rw [if_neg same, List.lookup_cons, skipped]
    exact lookup_filter_ne w.sessions same

def opened (j : Json) (ids : IdSupply) : Session := ⟨((Canvas.restore j).complete ids).1, none, 0⟩

variable {w c} in
theorem open?_of_session {s : Session} (found : w.session? c.epoch = some s) :
    w.open? c ids = ⟨.ok s, w, ids⟩ := by
  simp only [open?, found]

theorem open?_cases :
    (∃ s, w.session? c.epoch = some s ∧ w.open? c ids = ⟨.ok s, w, ids⟩) ∨
      (∃ e, w.session? c.epoch = none ∧ w.opening c = .error e ∧
        w.open? c ids = ⟨.error e, w, ids⟩) ∨
      ∃ j, w.session? c.epoch = none ∧ w.opening c = .ok j ∧
        w.open? c ids = ⟨.ok (opened j ids), w.putSession c.epoch (opened j ids),
          ((Canvas.restore j).complete ids).2⟩ := by
  cases found : w.session? c.epoch with
  | some s => exact .inl ⟨s, rfl, open?_of_session ids found⟩
  | none =>
      cases opening : w.opening c with
      | error e => exact .inr (.inl ⟨e, rfl, rfl, by simp only [open?, found, opening]⟩)
      | ok j => exact .inr (.inr ⟨j, rfl, rfl, by simp only [open?, found, opening, opened]⟩)

theorem open?_error {e : Failure} (failed : (w.open? c ids).result = .error e) :
    w.open? c ids = ⟨.error e, w, ids⟩ := by
  rcases open?_cases w c ids with ⟨s, -, opens⟩ | ⟨e', -, -, opens⟩ | ⟨j, -, -, opens⟩
  · rw [opens] at failed
    cases failed
  · rw [opens] at failed ⊢
    cases failed
    rfl
  · rw [opens] at failed
    cases failed

theorem session?_of_open?_error {e : Failure} (failed : (w.open? c ids).result = .error e) :
    w.session? c.epoch = none := by
  rcases open?_cases w c ids with ⟨s, -, opens⟩ | ⟨e', none, -, -⟩ | ⟨j, none, -, -⟩
  · rw [opens] at failed
    cases failed
  · exact none
  · exact none

theorem begin_cases :
    (∃ e, w.begin c ids = ⟨.error e, w, ids⟩) ∨
      ∃ s, (w.open? c ids).result = .ok s ∧
        w.begin c ids = ⟨.ok s.supersede.generation,
          (w.open? c ids).workspace.putSession c.epoch s.supersede, (w.open? c ids).ids⟩ := by
  cases opens : w.open? c ids with
  | mk result after rest =>
      cases result with
      | error e =>
          have untouched : w.open? c ids = ⟨.error e, w, ids⟩ := open?_error w c ids (by rw [opens])
          exact .inl ⟨e, by simp only [begin, untouched]⟩
      | ok s => exact .inr ⟨s, rfl, by simp only [begin, opens]⟩

variable {w c ids} in
theorem session?_open? {s : Session} (opens : (w.open? c ids).result = .ok s) :
    (w.open? c ids).workspace.session? c.epoch = some s := by
  rcases open?_cases w c ids with ⟨t, found, same⟩ | ⟨e, -, -, same⟩ | ⟨j, -, -, same⟩
  · rw [same] at opens ⊢
    cases opens
    exact found
  · rw [same] at opens
    cases opens
  · rw [same] at opens ⊢
    cases opens
    simp

theorem session?_open?_ne {epoch : Nat} (other : epoch ≠ c.epoch) :
    (w.open? c ids).workspace.session? epoch = w.session? epoch := by
  rcases open?_cases w c ids with ⟨t, -, same⟩ | ⟨e, -, -, same⟩ | ⟨j, -, -, same⟩
  · rw [same]
  · rw [same]
  · rw [same]
    simp [other]

theorem opening_eq_ok {j : Json} (ok : w.opening c = .ok j) : j = w.document ∨ j = .null := by
  unfold opening load at ok
  cases fault : c.loadFault with
  | none =>
      rw [fault] at ok
      exact .inl (Except.ok.inj ok).symm
  | some fault =>
      simp only [fault] at ok
      split at ok
      · exact .inr (Except.ok.inj ok).symm
      · cases ok

end Sessions

section Tasks

variable (w : Workspace) (c : Conditions) (ids : IdSupply)

/-- A commit puts the session in its place; what it may do besides is to store its canvas
or to fail for want of a store. -/
theorem commit_cases (change : Change) :
    (∃ stored, w.commit c change ids =
        ⟨.ok change.answer, { w.putSession c.epoch change.session with stored := stored }, ids⟩ ∧
      (stored = w.stored ∨ change.saves = true ∧
        stored = some (Document.write c.storage change.session.canvas.toJson))) ∨
      ∃ fault, change.saves = true ∧ c.saveFault = some fault ∧ fault.isOverlookedOnSave = false ∧
        w.commit c change ids =
          ⟨.error (.store fault), w.putSession c.epoch change.session, ids⟩ := by
  rw [commit]
  split
  · rename_i saves
    cases faulty : c.saveFault with
    | none =>
        simp only [save, faulty]
        exact .inl ⟨_, rfl, .inr ⟨saves, rfl⟩⟩
    | some fault =>
        simp only [save, faulty]
        split
        · exact .inl ⟨w.stored, rfl, .inl rfl⟩
        · rename_i told
          exact .inr ⟨fault, saves, rfl, by simpa using told, rfl⟩
  · exact .inl ⟨w.stored, rfl, .inl rfl⟩

theorem session?_commit (change : Change) (epoch : Nat) :
    (w.commit c change ids).workspace.session? epoch =
      if epoch = c.epoch then some change.session else w.session? epoch := by
  rw [← session?_putSession]
  rcases commit_cases w c ids change with ⟨stored, ends, -⟩ | ⟨fault, -, -, -, ends⟩
  · rw [ends]
    rfl
  · rw [ends]

variable {c} in
theorem result_commit (overlooked : ∀ fault, c.saveFault = some fault →
    fault.isOverlookedOnSave = true) (change : Change) :
    (w.commit c change ids).result = .ok change.answer := by
  rcases commit_cases w c ids change with ⟨stored, ends, -⟩ | ⟨fault, -, faulty, told, -⟩
  · rw [ends]
  · rw [overlooked fault faulty] at told
    cases told

theorem runTask_cases (task : Task) :
    (∃ e, (w.open? c ids).result = .error e ∧ w.runTask c task ids = ⟨.error e, w, ids⟩) ∨
      ∃ s, (w.open? c ids).result = .ok s ∧
        ((∃ e rest, task.run s (w.open? c ids).ids = (.error e, rest) ∧
          w.runTask c task ids = ⟨.error e, (w.open? c ids).workspace, rest⟩) ∨
        ∃ change rest, task.run s (w.open? c ids).ids = (.ok change, rest) ∧
          w.runTask c task ids = (w.open? c ids).workspace.commit c change rest) := by
  cases opens : w.open? c ids with
  | mk result after others =>
      cases result with
      | error e =>
          have untouched : w.open? c ids = ⟨.error e, w, ids⟩ := open?_error w c ids (by rw [opens])
          exact .inl ⟨e, rfl, by simp only [runTask, untouched]⟩
      | ok s =>
          refine .inr ⟨s, rfl, ?_⟩
          cases ran : task.run s others with
          | mk outcome rest =>
              cases outcome with
              | error e => exact .inl ⟨e, rest, rfl, by simp only [runTask, opens, ran]⟩
              | ok change => exact .inr ⟨change, rest, rfl, by simp only [runTask, opens, ran]⟩

end Tasks

end Workspace

namespace Studio

open Workspace (Answer Conditions Failure Operation StoreFault Storage)

section Workspaces

theorem lookup_setWorkspace (name other : String) (w : Workspace)
    (workspaces : List (String × Workspace)) :
    (setWorkspace name w workspaces).lookup other =
      if other = name then some w else workspaces.lookup other := by
  induction workspaces with
  | nil =>
      by_cases same : other = name
      · rw [if_pos same, setWorkspace, same, List.lookup_cons_self]
      · have skipped : (other == name) = false := by simpa using same
        rw [if_neg same]
        simp only [setWorkspace, List.lookup_cons, skipped]
  | cons entry rest ih =>
      obtain ⟨key, v⟩ := entry
      rw [setWorkspace]
      by_cases here : key = name
      · rw [if_pos here]
        by_cases same : other = name
        · rw [if_pos same, here, same, List.lookup_cons_self]
        · have skipped : (other == key) = false := by simpa [here] using same
          rw [if_neg same, List.lookup_cons, skipped, List.lookup_cons, skipped]
      · rw [if_neg here, List.lookup_cons, List.lookup_cons, ih]
        by_cases same : other = name
        · have skipped : (other == key) = false := by simpa [same] using fun eq => here eq.symm
          rw [skipped, if_pos same]
        · rw [if_neg same, if_neg same]

@[simp]
theorem workspace_putWorkspace (s : Studio) (name other : String) (w : Workspace) :
    (s.putWorkspace name w).workspace other = if other = name then w else s.workspace other := by
  rw [workspace, putWorkspace]
  dsimp only
  rw [lookup_setWorkspace]
  by_cases same : other = name
  · rw [if_pos same, if_pos same]
    rfl
  · rw [if_neg same, if_neg same, workspace]

@[simp]
theorem workspace_leave {α : Type} (s : Studio) (name other : String) (step : Workspace.Step α) :
    (s.leave name step).workspace other =
      if other = name then step.workspace else s.workspace other :=
  workspace_putWorkspace s name other step.workspace

@[simp]
theorem workspace_start (storage : Storage) (service : Generation.Service) (name : String) :
    (start storage service).workspace name = .untouched := rfl

end Workspaces

section Events

inductive Event where
  | perform (name : String) (op : Operation)
  | generate (name : String) (request : Generation.Request) (response : Generation.Response)
  | hold (tag name : String) (request : Generation.Request) (response : Generation.Response)
  | release (tag : String)
  | faults (save load : Option StoreFault)
  | restart

def next (s : Studio) : Event → Studio
  | .perform name op => (s.perform name op).2
  | .generate name request response => (s.generate name request response).2
  | .hold tag name request response => s.hold tag name request response
  | .release tag =>
      match s.release tag with
      | some (_, after) => after
      | none => s
  | .faults save load => s.setFaults save load
  | .restart => s.restart

def run (s : Studio) (events : List Event) : Studio := events.foldl next s

/-- What an event gives to whom caused it.  The start of a call gives nothing yet. -/
inductive Reply where
  | nothing
  | answer (result : Except Failure Answer)
  | graph (result : Except Failure Graph)

def reply (s : Studio) : Event → Reply
  | .perform name op => .answer (s.perform name op).1
  | .generate name request response => .graph (s.generate name request response).1
  | .release tag =>
      match s.release tag with
      | some (result, _) => .graph result
      | none => .nothing
  | _ => .nothing

def replies (s : Studio) : List Event → List Reply
  | [] => []
  | e :: events => s.reply e :: (s.next e).replies events

theorem generate_eq (s : Studio) (name : String) (request : Generation.Request)
    (response : Generation.Response) :
    s.generate name request response =
      (s.wait name request response).2.conclude (s.wait name request response).1 := rfl

def unhold (s : Studio) (tag : String) : Studio :=
  { s with waiting := s.waiting.filter fun other => other.1 != tag }

theorem release_of_held {s : Studio} {tag : String} {w : Waiting}
    (held : s.waiting.lookup tag = some w) :
    s.release tag = some ((s.unhold tag).conclude w) := by
  rw [release, held]
  rfl

theorem next_release {s : Studio} {tag : String} {w : Waiting}
    (held : s.waiting.lookup tag = some w) :
    s.next (.release tag) = ((s.unhold tag).conclude w).2 := by
  rw [next, release_of_held held]

theorem next_release_none {s : Studio} {tag : String} (free : s.waiting.lookup tag = none) :
    s.next (.release tag) = s := by
  rw [next, release, free]
  rfl

/-- A call whose start failed ends with that failure, any other one with what its session makes of
the result. -/
theorem conclude_cases (s : Studio) (w : Waiting) :
    (∃ e, w.ticket = .error e ∧ s.conclude w = (.error e, s)) ∨
      ∃ ticket, w.ticket = .ok ticket ∧
        s.conclude w =
          (((s.workspace w.workspace).finish w.epoch ticket
              (Generation.run s.service w.request none w.response).result).1,
            (s.record (Generation.run s.service w.request none w.response)).putWorkspace
              w.workspace ((s.workspace w.workspace).finish w.epoch ticket
                (Generation.run s.service w.request none w.response).result).2) := by
  cases began : w.ticket with
  | error e => exact .inl ⟨e, rfl, by simp only [conclude, began]⟩
  | ok ticket => exact .inr ⟨ticket, rfl, by simp only [conclude, began]⟩

theorem conditions_conclude (s : Studio) (w : Waiting) :
    (s.conclude w).2.conditions = s.conditions := by
  rcases conclude_cases s w with ⟨e, -, ends⟩ | ⟨ticket, -, ends⟩
  · rw [ends]
  · rw [ends]
    rfl

theorem reply_release {s : Studio} {tag : String} {w : Waiting}
    (held : s.waiting.lookup tag = some w) :
    s.reply (.release tag) = .graph ((s.unhold tag).conclude w).1 := by
  rw [reply, release_of_held held]

theorem reply_release_none {s : Studio} {tag : String} (free : s.waiting.lookup tag = none) :
    s.reply (.release tag) = .nothing := by
  rw [reply, release, free]
  rfl

end Events

section Lasting

/-- A property of a workspace, whatever the conditions, that the events of some kind keep. -/
structure Lasts (P : Conditions → Workspace → Prop) (fits : Studio → Event → Prop) : Prop where
  perform : ∀ s name op, fits s (.perform name op) → P s.conditions (s.workspace name) →
    P s.conditions ((s.workspace name).perform s.conditions op s.ids).workspace
  begin : ∀ c w ids, P c w → P c (Workspace.begin w c ids).workspace
  finish : ∀ c w epoch ticket service request response, P c w →
    P c (Workspace.finish w epoch ticket (Generation.run service request none response).result).2
  faults : ∀ s save load w, fits s (.faults save load) → P s.conditions w →
    P (s.setFaults save load).conditions w
  restart : ∀ (s : Studio) w, P s.conditions w → P s.restart.conditions w

def Everywhere (P : Conditions → Workspace → Prop) (s : Studio) : Prop :=
  ∀ name, P s.conditions (s.workspace name)

variable {P : Conditions → Workspace → Prop} {fits : Studio → Event → Prop} {s : Studio}

theorem Everywhere.put (every : s.Everywhere P) (name : String) {w : Workspace}
    (holds : P s.conditions w) : (s.putWorkspace name w).Everywhere P := by
  intro other
  rw [workspace_putWorkspace]
  split
  · exact holds
  · exact every other

theorem Lasts.wait (lasts : Lasts P fits) (every : s.Everywhere P) (name : String)
    (request : Generation.Request) (response : Generation.Response) :
    (s.wait name request response).2.Everywhere P :=
  every.put name (lasts.begin s.conditions (s.workspace name) s.ids (every name))

theorem Lasts.conclude (lasts : Lasts P fits) (every : s.Everywhere P) (w : Waiting) :
    (s.conclude w).2.Everywhere P := by
  rcases conclude_cases s w with ⟨e, -, ends⟩ | ⟨ticket, -, ends⟩
  · rw [ends]
    exact every
  · rw [ends]
    have finished := lasts.finish s.conditions (s.workspace w.workspace) w.epoch ticket s.service
      w.request w.response (every w.workspace)
    exact every.put w.workspace finished

/-- What every event keeps of a workspace lasts in all of them. -/
theorem Lasts.next (lasts : Lasts P fits) (every : s.Everywhere P) {e : Event} (fit : fits s e) :
    (s.next e).Everywhere P := by
  cases e with
  | perform name op => exact every.put name (lasts.perform s name op fit (every name))
  | generate name request response =>
      rw [Studio.next, generate_eq]
      exact lasts.conclude (lasts.wait every name request response) _
  | hold tag name request response => exact lasts.wait every name request response
  | release tag =>
      cases held : s.waiting.lookup tag with
      | none =>
          rw [next_release_none held]
          exact every
      | some w =>
          rw [next_release held]
          have kept : (s.unhold tag).Everywhere P := every
          exact lasts.conclude kept w
  | faults save load => exact fun name => lasts.faults s save load _ fit (every name)
  | restart => exact fun name => lasts.restart s _ (every name)

end Lasting

end Studio

end PromptCanvas
