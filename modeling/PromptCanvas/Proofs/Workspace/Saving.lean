import PromptCanvas.Proofs.Canvas.Storable
import PromptCanvas.Proofs.Workspace.Edits
import PromptCanvas.Proofs.Workspace.Protocol

/-! # What is saved, and saves that fail

An operation that succeeds saves the whole canvas that it leaves, unless it only looks,
closes the generator or joins two nodes that are joined already (`perform_saved`).  A run
in which saves fail, but in ways that are overlooked, cannot be told from the run in which
every save succeeds by anything but the stored documents, and these are the same again as
soon as an operation saves (`failures_unseen`). -/

set_option autoImplicit false

namespace PromptCanvas

def Canvas.joins (c : Canvas) (source target : String) : Bool :=
  c.edges.any fun e => e.source == source && e.target == target

namespace Workspace

section Saves

/-- Whether an operation that succeeds on a canvas saves what it leaves. -/
def Operation.saves (c : Canvas) : Operation → Bool
  | .view => false
  | .transcript => false
  | .markdown => false
  | .close => false
  | .connect source target => !c.joins source target
  | _ => true

theorem Session.saves_connect {s : Session} {source target : String} {change : Change}
    (ok : s.connect source target = .ok change) :
    change.saves = !s.canvas.joins source target := by
  unfold Session.connect at ok
  split at ok
  · cases ok
  · cases ok
  · split at ok
    · cases ok
    · rw [Canvas.joins]
      split at ok
      · rename_i e found
        cases ok
        have matched := List.find?_some found
        rw [List.any_eq_true.mpr ⟨e, List.mem_of_find?_eq_some found, matched⟩]
        rfl
      · rename_i none
        cases ok
        rw [List.any_eq_false.mpr (List.find?_eq_none.mp none)]
        rfl

theorem saves_of_run {op : Operation} {task : Task} (read : op.task = .ok task) {s : Session}
    {ids rest : IdSupply} {change : Change} (ran : task.run s ids = (.ok change, rest)) :
    change.saves = op.saves s.canvas := by
  cases op with
  | importText text confirmed =>
      obtain ⟨-, g, -, rfl⟩ := Operation.task_importText read
      cases ran
      rfl
  | reset confirmed =>
      obtain ⟨-, rfl⟩ := Operation.task_reset read
      cases ran
      rfl
  | draw confirmed =>
      cases read
      obtain ⟨g, -, rfl⟩ := Session.draw_eq_ok ran
      rfl
  | layout mode =>
      cases read
      obtain ⟨place, rfl⟩ := Session.arrange_eq_ok (Prod.mk.inj ran).1
      rfl
  | relabel id label =>
      cases read
      obtain ⟨n, -, rfl⟩ := Session.update_eq_ok (Prod.mk.inj ran).1
      rfl
  | relist id items =>
      cases read
      obtain ⟨n, -, rfl⟩ := Session.update_eq_ok (Prod.mk.inj ran).1
      rfl
  | remove id =>
      cases read
      obtain ⟨n, -, rfl⟩ := Session.remove_eq_ok (Prod.mk.inj ran).1
      rfl
  | connect source target =>
      cases read
      exact Session.saves_connect (Prod.mk.inj ran).1
  | select id =>
      cases read
      obtain ⟨-, rfl⟩ := Session.select_eq_ok (Prod.mk.inj ran).1
      rfl
  | _ =>
      cases read
      cases ran
      rfl

theorem canvas_of_run {task : Task} {s : Session} {ids rest : IdSupply} {change : Change}
    (ran : task.run s ids = (.ok change, rest)) (unsaved : change.saves = false) :
    change.session.canvas = s.canvas := by
  cases task with
  | draw confirmed =>
      obtain ⟨g, -, rfl⟩ := Session.draw_eq_ok ran
      cases unsaved
  | layout mode =>
      obtain ⟨place, rfl⟩ := Session.arrange_eq_ok (Prod.mk.inj ran).1
      cases unsaved
  | relabel id label =>
      obtain ⟨n, -, rfl⟩ := Session.update_eq_ok (Prod.mk.inj ran).1
      cases unsaved
  | relist id items =>
      obtain ⟨n, -, rfl⟩ := Session.update_eq_ok (Prod.mk.inj ran).1
      cases unsaved
  | remove id =>
      obtain ⟨n, -, rfl⟩ := Session.remove_eq_ok (Prod.mk.inj ran).1
      cases unsaved
  | connect source target =>
      obtain ⟨-, -, -, ⟨e, -, rfl⟩ | ⟨e, -, -, rfl⟩⟩ := Session.connect_eq_ok (Prod.mk.inj ran).1
      · rfl
      · cases unsaved
  | select id =>
      obtain ⟨-, rfl⟩ := Session.select_eq_ok (Prod.mk.inj ran).1
      cases unsaved
  | replace g =>
      cases ran
      cases unsaved
  | clear =>
      cases ran
      cases unsaved
  | add role position =>
      cases ran
      cases unsaved
  | _ =>
      cases ran
      rfl

variable {w : Workspace} {c : Conditions} {ids : IdSupply}

theorem stored_commit (w : Workspace) (ids : IdSupply) (ready : c.saveFault = none)
    (change : Change) :
    (w.commit c change ids).workspace.stored =
      if change.saves then some (Document.write c.storage change.session.canvas.toJson)
      else w.stored := by
  rw [commit]
  split
  · simp only [save, ready]
    rfl
  · rfl

theorem stored_open? (w : Workspace) (c : Conditions) (ids : IdSupply) :
    (w.open? c ids).workspace.stored = w.stored := (keepsCanvas_open? w c ids).stored

/-- An operation that succeeds where saves do stores the canvas that it leaves, or it leaves the
canvas that it found. -/
theorem perform_saved {op : Operation} {answer : Answer}
    (done : (w.perform c op ids).result = .ok answer) (ready : c.saveFault = none) :
    ∃ before after, (w.open? c ids).result = .ok before ∧
      (w.perform c op ids).workspace.session? c.epoch = some after ∧
        (op.saves before.canvas = true → (w.perform c op ids).workspace.stored =
          some (Document.write c.storage after.canvas.toJson)) ∧
        (op.saves before.canvas = false → (w.perform c op ids).workspace.stored = w.stored ∧
          after.canvas = before.canvas) := by
  rw [Workspace.perform] at done ⊢
  cases read : op.task with
  | error e =>
      rw [read] at done
      cases done
  | ok task =>
      rw [read] at done
      dsimp only at done ⊢
      rcases runTask_cases w c ids task with
        ⟨e, -, ends⟩ | ⟨s, opens, ⟨e, rest, -, ends⟩ | ⟨change, rest, ran, ends⟩⟩
      · rw [ends] at done
        cases done
      · rw [ends] at done
        cases done
      · rw [ends]
        have saves := saves_of_run read ran
        refine ⟨s, change.session, opens, ?_, ?_, ?_⟩
        · rw [session?_commit, if_pos rfl]
        · intro saved
          rw [stored_commit _ _ ready, if_pos (saves.trans saved)]
        · intro unsaved
          rw [stored_commit _ _ ready, if_neg (by simp [saves, unsaved]), stored_open?]
          exact ⟨rfl, canvas_of_run ran (saves.trans unsaved)⟩

end Saves

section Agreement

def Conditions.reliable (c : Conditions) : Conditions := { c with saveFault := none }

/-- A save that fails, if one does, is overlooked. -/
def Conditions.Lenient (c : Conditions) : Prop :=
  ∀ fault, c.saveFault = some fault → fault.isOverlookedOnSave = true

/-- Two workspaces with the same sessions, which store the same as long as none is open. -/
structure Agree (c : Conditions) (w v : Workspace) : Prop where
  sessions : v.sessions = w.sessions
  stored : w.session? c.epoch = none → v.stored = w.stored

structure StepsAgree {α : Type} (c : Conditions) (p q : Step α) : Prop where
  result : q.result = p.result
  ids : q.ids = p.ids
  workspace : Agree c p.workspace q.workspace

variable {w v : Workspace} {c : Conditions} {ids : IdSupply}

theorem eq_of_parts (stored : v.stored = w.stored) (sessions : v.sessions = w.sessions) :
    v = w := by
  cases v
  cases w
  cases stored
  cases sessions
  rfl

theorem Agree.session? (agree : Agree c w v) (epoch : Nat) :
    v.session? epoch = w.session? epoch := by
  rw [Workspace.session?, Workspace.session?, agree.sessions]

theorem Agree.of_open (sessions : v.sessions = w.sessions) {s : Session}
    (shown : w.session? c.epoch = some s) : Agree c w v := by
  refine ⟨sessions, ?_⟩
  intro none
  rw [shown] at none
  cases none

theorem Agree.putSession (agree : Agree c w v) (epoch : Nat) (s : Session) :
    Agree c (w.putSession epoch s) (v.putSession epoch s) := by
  constructor
  case sessions => simp only [Workspace.putSession, agree.sessions]
  case stored =>
    intro none
    rw [session?_putSession] at none
    split at none
    · cases none
    · exact agree.stored none

theorem Agree.open? (agree : Agree c w v) (ids : IdSupply) :
    StepsAgree c (w.open? c ids) (v.open? c.reliable ids) := by
  cases shown : w.session? c.epoch with
  | some s =>
      have same : v.session? c.reliable.epoch = some s := (agree.session? c.epoch).trans shown
      rw [open?_of_session ids shown, open?_of_session ids same]
      exact ⟨rfl, rfl, agree⟩
  | none =>
      have same : v = w := eq_of_parts (agree.stored shown) agree.sessions
      rw [same]
      exact ⟨rfl, rfl, rfl, fun _ => rfl⟩

/-- Whatever becomes of the save, a commit draws nothing and puts the session in its place. -/
theorem commit_frame (w : Workspace) (c : Conditions) (ids : IdSupply) (change : Change) :
    (w.commit c change ids).ids = ids ∧
      (w.commit c change ids).workspace.sessions =
        (w.putSession c.epoch change.session).sessions := by
  rcases commit_cases w c ids change with ⟨stored, ends, -⟩ | ⟨fault, -, -, -, ends⟩
  · rw [ends]
    exact ⟨rfl, rfl⟩
  · rw [ends]
    exact ⟨rfl, rfl⟩

theorem Agree.commit (agree : Agree c w v) (lenient : c.Lenient) (change : Change) :
    StepsAgree c (w.commit c change ids) (v.commit c.reliable change ids) := by
  have put := agree.putSession c.epoch change.session
  have ready : c.reliable.Lenient := by
    intro fault faulty
    cases faulty
  obtain ⟨drawn, sessions⟩ := commit_frame w c ids change
  obtain ⟨drawn', sessions'⟩ := commit_frame v c.reliable ids change
  refine ⟨?_, drawn'.trans drawn.symm, Agree.of_open ?_ (s := change.session) ?_⟩
  · rw [result_commit w ids lenient, result_commit v ids ready]
  · rw [sessions, sessions']
    exact put.sessions
  · rw [session?_commit, if_pos rfl]

theorem Agree.runTask (agree : Agree c w v) (lenient : c.Lenient) (task : Task) (ids : IdSupply) :
    StepsAgree c (w.runTask c task ids) (v.runTask c.reliable task ids) := by
  obtain ⟨result, drawn, opened⟩ := agree.open? ids
  rw [Workspace.runTask, Workspace.runTask]
  cases opens : w.open? c ids with
  | mk outcome after rest =>
      cases opens' : v.open? c.reliable ids with
      | mk outcome' after' rest' =>
          rw [opens, opens'] at result drawn opened
          cases result
          cases drawn
          cases outcome with
          | error e => exact ⟨rfl, rfl, opened⟩
          | ok s =>
              dsimp only
              cases ran : task.run s rest with
              | mk change others =>
                  cases change with
                  | error e => exact ⟨rfl, rfl, opened⟩
                  | ok change => exact opened.commit lenient change

theorem Agree.perform (agree : Agree c w v) (lenient : c.Lenient) (op : Operation)
    (ids : IdSupply) :
    StepsAgree c (w.perform c op ids) (v.perform c.reliable op ids) := by
  rw [Workspace.perform, Workspace.perform]
  cases op.task with
  | error e => exact ⟨rfl, rfl, agree⟩
  | ok task => exact agree.runTask lenient task ids

theorem Agree.begin (agree : Agree c w v) (ids : IdSupply) :
    StepsAgree c (w.begin c ids) (v.begin c.reliable ids) := by
  obtain ⟨result, drawn, opened⟩ := agree.open? ids
  rw [Workspace.begin, Workspace.begin]
  cases opens : w.open? c ids with
  | mk outcome after rest =>
      cases opens' : v.open? c.reliable ids with
      | mk outcome' after' rest' =>
          rw [opens, opens'] at result drawn opened
          cases result
          cases drawn
          cases outcome with
          | error e => exact ⟨rfl, rfl, opened⟩
          | ok s => exact ⟨rfl, rfl, opened.putSession c.epoch s.supersede⟩

theorem Agree.finish (agree : Agree c w v) (epoch ticket : Nat)
    (result : Except Generation.Failure Graph) :
    (v.finish epoch ticket result).1 = (w.finish epoch ticket result).1 ∧
      Agree c (w.finish epoch ticket result).2 (v.finish epoch ticket result).2 := by
  rw [Workspace.finish, Workspace.finish, agree.session?]
  cases w.session? epoch with
  | none => exact ⟨rfl, agree⟩
  | some s => exact ⟨rfl, agree.putSession epoch _⟩

theorem Conditions.reliable_eq (ready : c.saveFault = none) : c.reliable = c := by
  cases c
  cases ready
  rfl

/-- An operation that saves leaves nothing to differ in. -/
theorem Agree.perform_saved (agree : Agree c w v) (ready : c.saveFault = none) {op : Operation}
    {answer : Answer} (done : (w.perform c op ids).result = .ok answer) {before : Session}
    (opens : (w.open? c ids).result = .ok before) (saved : op.saves before.canvas = true) :
    (v.perform c op ids).workspace = (w.perform c op ids).workspace := by
  have lenient : c.Lenient := by
    intro fault faulty
    rw [ready] at faulty
    cases faulty
  have opened := agree.open? ids
  have same := agree.perform lenient op ids
  rw [Conditions.reliable_eq ready] at opened same
  obtain ⟨shown, after, opens', found, stores, -⟩ := Workspace.perform_saved done ready
  obtain ⟨shown', after', opens'', found', stores', -⟩ :=
    Workspace.perform_saved (same.result.trans done) ready
  cases opens.symm.trans opens'
  cases (opened.result.trans opens).symm.trans opens''
  cases found.symm.trans ((same.workspace.session? c.epoch).symm.trans found')
  exact eq_of_parts ((stores' saved).trans (stores saved).symm) same.workspace.sessions

end Agreement

end Workspace

namespace Studio

open Workspace (Agree Operation StoreFault)

section Reliability

def reliable (s : Studio) : Studio := s.setFaults none s.conditions.loadFault

def Event.reliable : Event → Event
  | .faults _ load => .faults none load
  | e => e

/-- An event of one service after which the saves that fail are overlooked. -/
def Event.Lenient : Event → Prop
  | .faults save _ => ∀ fault, save = some fault → fault.isOverlookedOnSave = true
  | .restart => False
  | _ => True

/-- Two studios that differ in nothing but their saves. -/
structure Twins (s t : Studio) : Prop where
  service : t.service = s.service
  conditions : t.conditions = s.conditions.reliable
  ids : t.ids = s.ids
  waiting : t.waiting = s.waiting
  workspace : ∀ name, Agree s.conditions (s.workspace name) (t.workspace name)

variable {s t : Studio}

theorem twins_reliable (s : Studio) : Twins s s.reliable :=
  ⟨rfl, rfl, rfl, rfl, fun _ => ⟨rfl, fun _ => rfl⟩⟩

theorem Twins.put (twins : Twins s t) (name : String) {w v : Workspace}
    (agree : Agree s.conditions w v) : Twins (s.putWorkspace name w) (t.putWorkspace name v) := by
  refine ⟨twins.service, twins.conditions, twins.ids, twins.waiting, ?_⟩
  intro other
  rw [workspace_putWorkspace, workspace_putWorkspace]
  split
  · exact agree
  · exact twins.workspace other

theorem Twins.leave (twins : Twins s t) {α : Type} (name : String) {p q : Workspace.Step α}
    (same : Workspace.StepsAgree s.conditions p q) : Twins (s.leave name p) (t.leave name q) := by
  have put := twins.put name same.workspace
  exact ⟨put.service, put.conditions, same.ids, put.waiting, put.workspace⟩

theorem Twins.perform (twins : Twins s t) (lenient : s.conditions.Lenient) (name : String)
    (op : Operation) :
    (t.perform name op).1 = (s.perform name op).1 ∧
      Twins (s.perform name op).2 (t.perform name op).2 := by
  have same := (twins.workspace name).perform lenient op s.ids
  rw [Studio.perform, Studio.perform, twins.conditions, twins.ids]
  exact ⟨same.result, twins.leave name same⟩

theorem Twins.wait (twins : Twins s t) (name : String) (request : Generation.Request)
    (response : Generation.Response) :
    (t.wait name request response).1 = (s.wait name request response).1 ∧
      Twins (s.wait name request response).2 (t.wait name request response).2 := by
  have same := (twins.workspace name).begin s.ids
  rw [Studio.wait, Studio.wait, begin, begin, twins.conditions, twins.ids]
  dsimp only
  rw [same.result]
  exact ⟨rfl, twins.leave name same⟩

theorem Twins.conclude (twins : Twins s t) (w : Waiting) :
    (t.conclude w).1 = (s.conclude w).1 ∧ Twins (s.conclude w).2 (t.conclude w).2 := by
  rcases conclude_cases s w with ⟨e, began, ends⟩ | ⟨ticket, began, ends⟩
  · rw [conclude_of_error began, conclude_of_error began]
    exact ⟨rfl, twins⟩
  · rcases conclude_cases t w with ⟨e', began', -⟩ | ⟨ticket', began', ends'⟩
    · rw [began] at began'
      cases began'
    · rw [began] at began'
      cases began'
      have same := (twins.workspace w.workspace).finish w.epoch ticket
        (Generation.run s.service w.request none w.response).result
      have put := twins.put w.workspace same.2
      rw [ends, ends', twins.service]
      exact ⟨same.1, put.service, put.conditions, put.ids, put.waiting, put.workspace⟩

theorem Twins.unhold (twins : Twins s t) (tag : String) : Twins (s.unhold tag) (t.unhold tag) := by
  refine ⟨twins.service, twins.conditions, twins.ids, ?_, twins.workspace⟩
  rw [Studio.unhold, Studio.unhold, twins.waiting]

theorem Twins.hold (twins : Twins s t) (tag name : String) (request : Generation.Request)
    (response : Generation.Response) :
    Twins (s.hold tag name request response) (t.hold tag name request response) := by
  obtain ⟨same, waits⟩ := twins.wait name request response
  refine ⟨waits.service, waits.conditions, waits.ids, ?_, waits.workspace⟩
  simp only [Studio.hold, same, waits.waiting]

theorem lenient_next (lenient : s.conditions.Lenient) {e : Event} (later : e.Lenient) :
    (s.next e).conditions.Lenient := by
  cases e with
  | perform name op => exact lenient
  | generate name request response =>
      rw [next, generate_eq, conditions_conclude]
      exact lenient
  | hold tag name request response => exact lenient
  | release tag =>
      cases held : s.waiting.lookup tag with
      | none =>
          rw [next_release_none held]
          exact lenient
      | some w =>
          rw [next_release held, conditions_conclude]
          exact lenient
  | faults save load => exact later
  | restart => cases later

theorem Twins.next (twins : Twins s t) (lenient : s.conditions.Lenient) {e : Event}
    (later : e.Lenient) :
    t.reply e.reliable = s.reply e ∧ Twins (s.next e) (t.next e.reliable) := by
  cases e with
  | perform name op =>
      obtain ⟨answer, ends⟩ := twins.perform lenient name op
      exact ⟨congrArg Reply.answer answer, ends⟩
  | generate name request response =>
      obtain ⟨same, waits⟩ := twins.wait name request response
      obtain ⟨answer, ends⟩ := waits.conclude (s.wait name request response).1
      dsimp only [Event.reliable]
      rw [Studio.next, Studio.next, reply, reply, generate_eq, generate_eq, same]
      exact ⟨congrArg Reply.graph answer, ends⟩
  | hold tag name request response => exact ⟨rfl, twins.hold tag name request response⟩
  | release tag =>
      dsimp only [Event.reliable]
      cases held : s.waiting.lookup tag with
      | none =>
          have free : t.waiting.lookup tag = none := twins.waiting ▸ held
          rw [reply_release_none held, reply_release_none free, next_release_none held,
            next_release_none free]
          exact ⟨rfl, twins⟩
      | some w =>
          have kept : t.waiting.lookup tag = some w := twins.waiting ▸ held
          obtain ⟨answer, ends⟩ := (twins.unhold tag).conclude w
          rw [reply_release held, reply_release kept, next_release held, next_release kept, answer]
          exact ⟨rfl, ends⟩
  | faults save load =>
      refine ⟨rfl, twins.service, ?_, twins.ids, twins.waiting, ?_⟩
      · simp only [Event.reliable, Studio.next, setFaults, twins.conditions]
        rfl
      · intro name
        exact ⟨(twins.workspace name).sessions, (twins.workspace name).stored⟩
  | restart => cases later

theorem Twins.run (twins : Twins s t) (lenient : s.conditions.Lenient) {events : List Event}
    (later : ∀ e ∈ events, e.Lenient) :
    t.replies (events.map Event.reliable) = s.replies events ∧
      Twins (s.run events) (t.run (events.map Event.reliable)) ∧
        (s.run events).conditions.Lenient := by
  induction events generalizing s t with
  | nil => exact ⟨rfl, twins, lenient⟩
  | cons e events ih =>
      have first := later e List.mem_cons_self
      obtain ⟨answer, after⟩ := twins.next lenient first
      obtain ⟨answers, ends⟩ := ih after (lenient_next lenient first)
        fun e member => later e (List.mem_cons_of_mem _ member)
      rw [List.map_cons, replies, replies, answer, answers]
      exact ⟨rfl, ends⟩

end Reliability

section Failures

variable {s : Studio} {events : List Event}

/-- The canvas of the session of a workspace, or of the one that would be opened. -/
def shown? (s : Studio) (name : String) : Option Canvas :=
  ((s.workspace name).open? s.conditions s.ids).result.toOption.map Workspace.Session.canvas

/-- Saves that fail change nothing but what is stored: every event of a run on one service is
answered as if every save succeeded, every session stays the same, and an operation that saves
stores the whole canvas again, as it would be stored then. -/
theorem failures_unseen (lenient : s.conditions.Lenient) (later : ∀ e ∈ events, e.Lenient) :
    s.reliable.replies (events.map Event.reliable) = s.replies events ∧
      (∀ done, done <+: events →
        (s.run done).SameSessions (s.reliable.run (done.map Event.reliable))) ∧
      ∀ name op answer after, (s.run events).conditions.saveFault = none →
        (s.run events).perform name op = (.ok answer, after) →
          ∃ canvas session, (s.run events).shown? name = some canvas ∧
            after.session? name = some session ∧
              (op.saves canvas = true →
                (after.workspace name).stored =
                  some (.write after.conditions.storage session.canvas.toJson) ∧
                (session.canvas.Exact → (after.workspace name).document = session.canvas.toJson) ∧
                ((s.reliable.run (events.map Event.reliable)).perform name op).2.workspace name =
                  after.workspace name) := by
  have twins := twins_reliable s
  refine ⟨(twins.run lenient later).1, ?_, ?_⟩
  · intro done start name epoch
    have among : ∀ e ∈ done, e.Lenient := fun e member => later e (start.subset member)
    exact ((twins.run lenient among).2.1.workspace name).session? epoch
  · intro name op answer after ready done
    obtain ⟨-, ends, -⟩ := twins.run lenient later
    obtain ⟨ok, rfl⟩ := Prod.mk.inj done
    obtain ⟨before, session, opens, shown, stores, -⟩ := Workspace.perform_saved ok ready
    refine ⟨before.canvas, session, ?_, ?_, ?_⟩
    · rw [shown?, opens]
      rfl
    · rw [Studio.session?, workspace_leave, if_pos rfl]
      exact shown
    · intro saved
      have stored := stores saved
      rw [workspace_leave, if_pos rfl]
      refine ⟨stored, ?_, ?_⟩
      · intro exact
        rw [Workspace.document, stored]
        exact Workspace.Document.read_exact _ exact
      · have same := (ends.workspace name).perform_saved ready ok opens saved
        rw [Studio.perform, workspace_leave, if_pos rfl, ends.conditions,
          Workspace.Conditions.reliable_eq ready, ends.ids, same]

def unwritable : List Event :=
  [.faults (some .unavailable) none, .perform "w" (.add .user .origin), .faults none none]

theorem failures_unseen_unwritable :
    (start .files ⟨"", "m"⟩).conditions.Lenient ∧ (∀ e ∈ unwritable, e.Lenient) ∧
      (((start .files ⟨"", "m"⟩).run unwritable).workspace "w").stored.isNone = true ∧
        (start .files ⟨"", "m"⟩).reliable.replies (unwritable.map Event.reliable) =
          (start .files ⟨"", "m"⟩).replies unwritable ∧
        ∃ session : Workspace.Session,
          ((((start .files ⟨"", "m"⟩).run unwritable).perform "w" (.select none)).2.workspace
            "w").stored = some (.write .files session.canvas.toJson) := by
  have lenient : (start .files ⟨"", "m"⟩).conditions.Lenient := by
    intro fault faulty
    cases faulty
  have later : ∀ e ∈ unwritable, e.Lenient := by
    intro e member
    simp only [unwritable, List.mem_cons, List.not_mem_nil, or_false] at member
    rcases member with rfl | rfl | rfl
    · intro fault faulty
      cases faulty
      rfl
    · trivial
    · intro fault faulty
      cases faulty
  obtain ⟨answers, -, saves⟩ := failures_unseen lenient later
  refine ⟨lenient, later, rfl, answers, ?_⟩
  obtain ⟨canvas, session, -, -, stores⟩ := saves "w" (.select none) _ _ rfl rfl
  exact ⟨session, (stores rfl).1⟩

end Failures

end Studio

end PromptCanvas
