import PromptCanvas.Proofs.Workspace.Ties

/-! # The protocol of generations

`Studio.chronicle` records what a run does to the generators of its sessions.  A session
holds a graph just if the newest start or stop of its generator is a start whose call has
ended with that graph; a call gives its graph just if nothing came after its start; and
starting, ending and closing touch no canvas and nothing that is stored
(`orderly_run`). -/

set_option autoImplicit false

namespace PromptCanvas.Studio

open Workspace (Failure Mark Awaits Quiet Ready Kept Tied turns)

/-- A mark in the ledger of the session of a workspace in an epoch. -/
structure Record where
  workspace : String
  epoch : Nat
  mark : Mark

section Records

def ledger (records : List Record) (name : String) (epoch : Nat) : List Mark :=
  (records.filter fun r => r.workspace == name && r.epoch == epoch).map Record.mark

def outcome (s : Studio) (request : Generation.Request) (response : Generation.Response) :
    Except Generation.Failure Graph :=
  (Generation.run s.service request none response).result

def startMarks (s : Studio) (name : String) : List Record :=
  match (s.begin name).1 with
  | .ok ticket => [⟨name, s.conditions.epoch, .started ticket⟩]
  | .error _ => []

def endMarks (s : Studio) (w : Waiting) : List Record :=
  match w.ticket with
  | .ok ticket => [⟨w.workspace, w.epoch, .finished ticket (s.outcome w.request w.response)⟩]
  | .error _ => []

/-- What an event adds to the ledgers, the newest first. -/
def marks (s : Studio) : Event → List Record
  | .perform name op =>
      if (s.workspace name).stops s.conditions op s.ids then
        [⟨name, s.conditions.epoch, .stopped⟩]
      else []
  | .generate name request response =>
      s.endMarks (s.wait name request response).1 ++ s.startMarks name
  | .hold _ name _ _ => s.startMarks name
  | .release tag =>
      match s.waiting.lookup tag with
      | some w => s.endMarks w
      | none => []
  | .faults _ _ => []
  | .restart => []

def chronicle (s : Studio) (records : List Record) : List Event → List Record
  | [] => records
  | e :: events => (s.next e).chronicle (s.marks e ++ records) events

theorem ledger_here (records : List Record) (name : String) (epoch : Nat) (m : Mark) :
    ledger (⟨name, epoch, m⟩ :: records) name epoch = m :: ledger records name epoch := by
  simp [ledger]

theorem ledger_elsewhere (records : List Record) {name other : String} {epoch age : Nat} (m : Mark)
    (elsewhere : ¬ (other = name ∧ age = epoch)) :
    ledger (⟨name, epoch, m⟩ :: records) other age = ledger records other age := by
  have skipped : (name == other && epoch == age) = false := by
    rw [Bool.and_eq_false_iff, beq_eq_false_iff_ne, beq_eq_false_iff_ne, ← not_and_or]
    exact fun same => elsewhere ⟨same.1.symm, same.2.symm⟩
  rw [ledger, List.filter_cons_of_neg (by rw [skipped]; exact Bool.false_ne_true), ledger]

end Records

section Following

/-- The call that is waited for has started, if it has a ticket, and not ended. -/
def InFlight (records : List Record) (w : Waiting) : Prop :=
  ∀ ticket, w.ticket = .ok ticket → Awaits (ledger records w.workspace w.epoch) ticket

def Apart (v w : Waiting) : Prop :=
  ∀ ticket, v.ticket = .ok ticket → w.ticket = .ok ticket → v.workspace = w.workspace →
    v.epoch ≠ w.epoch

/-- A studio is where its ledgers say. -/
structure Followed (s : Studio) (records : List Record) : Prop where
  tied : ∀ name epoch, Tied ((s.workspace name).session? epoch) (ledger records name epoch)
  inFlight : ∀ held ∈ s.waiting, InFlight records held.2
  apart : ∀ a ∈ s.waiting, ∀ b ∈ s.waiting, a.1 ≠ b.1 → Apart a.2 b.2

variable {s after : Studio} {records : List Record}

/-- A step that moves one session and adds one mark to its ledger. -/
theorem Followed.move (followed : s.Followed records) {name : String} {epoch : Nat} {m : Mark}
    (frame : ∀ other age, ¬ (other = name ∧ age = epoch) →
      (after.workspace other).session? age = (s.workspace other).session? age)
    (here : Tied ((after.workspace name).session? epoch) (m :: ledger records name epoch))
    (other : String) (age : Nat) :
    Tied ((after.workspace other).session? age)
      (ledger (⟨name, epoch, m⟩ :: records) other age) := by
  by_cases same : other = name ∧ age = epoch
  · obtain ⟨rfl, rfl⟩ := same
    rw [ledger_here]
    exact here
  · rw [ledger_elsewhere records m same, frame other age same]
    exact followed.tied other age

theorem InFlight.cons {w : Waiting} (inFlight : InFlight records w) (name : String) (epoch : Nat)
    (m : Mark) (other : ∀ ticket, w.ticket = .ok ticket → w.workspace = name → w.epoch = epoch →
      ∀ result, m ≠ .finished ticket result) :
    InFlight (⟨name, epoch, m⟩ :: records) w := by
  intro ticket began
  by_cases same : w.workspace = name ∧ w.epoch = epoch
  · rw [same.1, same.2, ledger_here]
    have awaits := inFlight ticket began
    rw [same.1, same.2] at awaits
    exact awaits.cons (other ticket began same.1 same.2)
  · rw [ledger_elsewhere records m same]
    exact inFlight ticket began

def SameSessions (s after : Studio) : Prop :=
  ∀ name epoch, (after.workspace name).session? epoch = (s.workspace name).session? epoch

theorem Followed.congr (followed : s.Followed records) (same : s.SameSessions after)
    (waiting : after.waiting = s.waiting) : after.Followed records := by
  constructor
  case tied =>
    intro name epoch
    rw [same name epoch]
    exact followed.tied name epoch
  case inFlight =>
    rw [waiting]
    exact followed.inFlight
  case apart =>
    rw [waiting]
    exact followed.apart

end Following

section Starts

variable {s : Studio} {records : List Record}

theorem session?_leave {α : Type} (s : Studio) (name other : String) (epoch : Nat)
    (step : Workspace.Step α) :
    ((s.leave name step).workspace other).session? epoch =
      if other = name then step.workspace.session? epoch
      else (s.workspace other).session? epoch := by
  rw [workspace_leave]
  split <;> rfl

theorem session?_leave_elsewhere {α : Type} {name : String} {step : Workspace.Step α}
    (frame : ∀ epoch, epoch ≠ s.conditions.epoch →
      step.workspace.session? epoch = (s.workspace name).session? epoch)
    (other : String) (age : Nat) (elsewhere : ¬ (other = name ∧ age = s.conditions.epoch)) :
    ((s.leave name step).workspace other).session? age = (s.workspace other).session? age := by
  rw [session?_leave]
  split
  · rename_i here
    rw [here]
    exact frame age fun same => elsewhere ⟨here, same⟩
  · rfl

theorem outcome_leave {α : Type} (s : Studio) (name : String) (step : Workspace.Step α)
    (request : Generation.Request) (response : Generation.Response) :
    (s.leave name step).outcome request response = s.outcome request response := rfl

theorem Followed.wait (followed : s.Followed records) (name : String)
    (request : Generation.Request) (response : Generation.Response) :
    (s.wait name request response).2.Followed (s.startMarks name ++ records) ∧
      InFlight (s.startMarks name ++ records) (s.wait name request response).1 ∧
        ∀ held ∈ s.waiting, Apart (s.wait name request response).1 held.2 := by
  rw [Studio.wait, startMarks, begin]
  dsimp only
  rcases Workspace.begin_cases (s.workspace name) s.conditions s.ids with
    ⟨e, ends⟩ | ⟨session, opens, ends⟩
  · rw [ends]
    refine ⟨followed.congr ?_ rfl, ?_, ?_⟩
    · intro other epoch
      rw [session?_leave]
      split
      · rename_i here
        rw [here]
      · rfl
    · intro ticket none
      cases none
    · intro held _ ticket none
      cases none
  · rw [ends]
    have kept : Kept session (ledger records name s.conditions.epoch) :=
      (followed.tied name s.conditions.epoch).opens opens
    have ticket : session.supersede.generation =
        turns (ledger records name s.conditions.epoch) + 1 := congrArg (· + 1) kept.count
    refine ⟨⟨?_, ?_, followed.apart⟩, ?_, ?_⟩
    · refine followed.move (session?_leave_elsewhere ?_) ?_
      · intro epoch other
        dsimp only
        rw [Workspace.session?_putSession, if_neg other]
        exact Workspace.session?_open?_ne _ _ _ other
      · rw [session?_leave, if_pos rfl, Workspace.session?_putSession, if_pos rfl]
        exact kept.start
    · intro held member
      apply (followed.inFlight held member).cons name s.conditions.epoch _
      intro _ _ _ _ _ same
      cases same
    · intro own same
      cases same
      dsimp only [List.singleton_append]
      rw [ledger_here, ticket]
      exact kept.numbered.awaits_started
    · intro held member own same began sameName sameEpoch
      cases same
      have awaits := followed.inFlight held member _ began
      rw [← sameName, ← sameEpoch] at awaits
      have older := kept.numbered.ticket_le awaits.1
      omega

end Starts

section Ends

variable {s : Studio} {records : List Record} {w : Waiting}

theorem conclude_of_error {e : Failure} (refused : w.ticket = .error e) :
    s.conclude w = (.error e, s) := by
  simp only [conclude, refused]

theorem conclude_of_ok {ticket : Nat} {session : Workspace.Session} (began : w.ticket = .ok ticket)
    (shown : (s.workspace w.workspace).session? w.epoch = some session) :
    s.conclude w =
      ((session.settle ticket (s.outcome w.request w.response)).1,
        (s.record (Generation.run s.service w.request none w.response)).putWorkspace w.workspace
          ((s.workspace w.workspace).putSession w.epoch
            (session.settle ticket (s.outcome w.request w.response)).2)) := by
  simp only [conclude, began, Workspace.finish, shown, outcome]

theorem session?_conclude {ticket : Nat} {session : Workspace.Session}
    (began : w.ticket = .ok ticket)
    (shown : (s.workspace w.workspace).session? w.epoch = some session) (name : String)
    (epoch : Nat) :
    ((s.conclude w).2.workspace name).session? epoch =
      if name = w.workspace ∧ epoch = w.epoch then
        some (session.settle ticket (s.outcome w.request w.response)).2
      else (s.workspace name).session? epoch := by
  rw [conclude_of_ok began shown]
  dsimp only
  rw [workspace_putWorkspace]
  by_cases here : name = w.workspace
  · rw [if_pos here, Workspace.session?_putSession, here]
    simp only [true_and]
  · rw [if_neg here, if_neg fun same => here same.1]
    rfl

theorem Followed.session (followed : s.Followed records) (inFlight : InFlight records w)
    {ticket : Nat} (began : w.ticket = .ok ticket) :
    ∃ session, (s.workspace w.workspace).session? w.epoch = some session ∧
      Kept session (ledger records w.workspace w.epoch) := by
  have tied := followed.tied w.workspace w.epoch
  cases shown : (s.workspace w.workspace).session? w.epoch with
  | none =>
      rw [shown] at tied
      have started := (inFlight ticket began).1
      rw [show ledger records w.workspace w.epoch = [] from tied] at started
      cases started
  | some session =>
      rw [shown] at tied
      exact ⟨session, rfl, tied⟩

theorem Followed.conclude (followed : s.Followed records) (inFlight : InFlight records w)
    (apart : ∀ held ∈ s.waiting, Apart w held.2) :
    (s.conclude w).2.Followed (s.endMarks w ++ records) := by
  cases began : w.ticket with
  | error e =>
      rw [conclude_of_error began, endMarks, began]
      exact followed
  | ok ticket =>
      obtain ⟨session, shown, kept⟩ := followed.session inFlight began
      have moved := session?_conclude began shown
      have waiting : (s.conclude w).2.waiting = s.waiting := by
        rw [conclude_of_ok began shown]
        rfl
      rw [endMarks, began]
      constructor
      case tied =>
        refine followed.move (fun other age elsewhere => ?_) ?_
        · rw [moved, if_neg elsewhere]
        · rw [moved, if_pos ⟨rfl, rfl⟩]
          exact kept.settle (inFlight ticket began) _
      case inFlight =>
        rw [waiting]
        intro held member
        apply (followed.inFlight held member).cons w.workspace w.epoch _
        intro own other sameName sameEpoch result same
        cases same
        exact apart held member ticket began other sameName.symm sameEpoch.symm
      case apart =>
        rw [waiting]
        exact followed.apart

end Ends

section Steps

variable {s : Studio} {records : List Record}

theorem Followed.perform (followed : s.Followed records) (name : String)
    (op : Workspace.Operation) :
    (s.perform name op).2.Followed (s.marks (.perform name op) ++ records) := by
  have moved := (followed.tied name s.conditions.epoch).perform op s.ids
  have frame : ∀ other age, ¬ (other = name ∧ age = s.conditions.epoch) →
      ((s.perform name op).2.workspace other).session? age =
        (s.workspace other).session? age :=
    session?_leave_elsewhere fun _ other => Workspace.session?_perform_ne op other
  have here : ∀ epoch, (((s.perform name op).2.workspace name).session? epoch) =
      ((s.workspace name).perform s.conditions op s.ids).workspace.session? epoch := by
    intro epoch
    rw [Studio.perform]
    dsimp only
    rw [session?_leave, if_pos rfl]
  rw [marks]
  split
  · rename_i stops
    rw [if_pos stops, ← here] at moved
    refine ⟨followed.move frame moved, ?_, followed.apart⟩
    intro held member
    apply (followed.inFlight held member).cons name s.conditions.epoch _
    intro _ _ _ _ _ same
    cases same
  · rename_i other
    rw [if_neg other, ← here] at moved
    refine ⟨?_, followed.inFlight, followed.apart⟩
    intro stranger age
    by_cases same : stranger = name ∧ age = s.conditions.epoch
    · rw [same.1, same.2]
      exact moved
    · rw [frame stranger age same]
      exact followed.tied stranger age

theorem Apart.symm {v w : Waiting} (apart : Apart v w) : Apart w v := by
  intro ticket second first sameName sameEpoch
  exact apart ticket first second sameName.symm sameEpoch.symm

theorem Followed.hold (followed : s.Followed records) (tag name : String)
    (request : Generation.Request) (response : Generation.Response) :
    (s.hold tag name request response).Followed (s.startMarks name ++ records) := by
  obtain ⟨waits, inFlight, apart⟩ := followed.wait name request response
  refine ⟨waits.tied, ?_, ?_⟩
  · intro held member
    rcases List.mem_cons.mp member with rfl | old
    · exact inFlight
    · exact waits.inFlight held (List.mem_filter.mp old).1
  · intro a first b second different
    rcases List.mem_cons.mp first with rfl | oldFirst
    · rcases List.mem_cons.mp second with rfl | oldSecond
      · exact absurd rfl different
      · exact apart b (List.mem_filter.mp oldSecond).1
    · rcases List.mem_cons.mp second with rfl | oldSecond
      · exact (apart a (List.mem_filter.mp oldFirst).1).symm
      · exact followed.apart a (List.mem_filter.mp oldFirst).1 b (List.mem_filter.mp oldSecond).1
          different

theorem Followed.unhold (followed : s.Followed records) (tag : String) :
    (s.unhold tag).Followed records := by
  refine ⟨followed.tied, ?_, ?_⟩
  · intro held member
    exact followed.inFlight held (List.mem_filter.mp member).1
  · intro a first b second
    exact followed.apart a (List.mem_filter.mp first).1 b (List.mem_filter.mp second).1

theorem mem_of_lookup {tag : String} {w : Waiting} {waiting : List (String × Waiting)}
    (found : waiting.lookup tag = some w) : (tag, w) ∈ waiting := by
  obtain ⟨before, after, rfl, -⟩ := List.lookup_eq_some_iff.mp found
  exact List.mem_append_right before List.mem_cons_self

theorem Followed.apart_held (followed : s.Followed records) {tag : String} {w : Waiting}
    (held : s.waiting.lookup tag = some w) : ∀ other ∈ (s.unhold tag).waiting, Apart w other.2 := by
  intro other member
  obtain ⟨listed, different⟩ := List.mem_filter.mp member
  exact followed.apart (tag, w) (mem_of_lookup held) other listed fun same => by
    rw [← same] at different
    simp at different

theorem Followed.next (followed : s.Followed records) (e : Event) :
    (s.next e).Followed (s.marks e ++ records) := by
  cases e with
  | perform name op => exact followed.perform name op
  | generate name request response =>
      obtain ⟨waits, inFlight, apart⟩ := followed.wait name request response
      rw [Studio.next, generate_eq, marks, List.append_assoc]
      exact waits.conclude inFlight apart
  | hold tag name request response => exact followed.hold tag name request response
  | release tag =>
      rw [marks]
      cases held : s.waiting.lookup tag with
      | none =>
          rw [next_release_none held]
          exact followed
      | some w =>
          rw [next_release held]
          exact (followed.unhold tag).conclude (followed.inFlight (tag, w) (mem_of_lookup held))
            (followed.apart_held held)
  | faults save load => exact ⟨followed.tied, followed.inFlight, followed.apart⟩
  | restart => exact ⟨followed.tied, followed.inFlight, followed.apart⟩

theorem Followed.run (followed : s.Followed records) (events : List Event) :
    (s.run events).Followed (s.chronicle records events) := by
  induction events generalizing s records with
  | nil => exact followed
  | cons e events ih => exact ih (followed.next e)

theorem followed_start (storage : Workspace.Storage) (service : Generation.Service) :
    (start storage service).Followed [] := by
  constructor
  case tied =>
    intro name epoch
    exact rfl
  case inFlight =>
    intro held none
    cases none
  case apart =>
    intro held none
    cases none

end Steps

section Canvases

variable {s : Studio}

/-- The two ends of a generation, together or apart, and the closing of a generator. -/
def Event.isGeneration : Event → Bool
  | .generate _ _ _ => true
  | .hold _ _ _ _ => true
  | .release _ => true
  | .perform _ .close => true
  | _ => false

theorem keepsCanvas_leave {α : Type} {name : String} {step : Workspace.Step α}
    (keeps : (s.workspace name).KeepsCanvas step.workspace s.conditions s.ids) (other : String) :
    (s.workspace other).KeepsCanvas ((s.leave name step).workspace other) s.conditions s.ids := by
  rw [workspace_leave]
  split
  · rename_i here
    rw [here]
    exact keeps
  · exact Workspace.keepsCanvas_refl _ _ _

theorem keepsCanvas_conclude {v : Workspace} {c : Workspace.Conditions} {ids : IdSupply}
    {name : String} (keeps : v.KeepsCanvas (s.workspace name) c ids) (w : Waiting) :
    v.KeepsCanvas ((s.conclude w).2.workspace name) c ids := by
  rw [Studio.conclude]
  split
  · exact keeps
  · dsimp only
    rw [workspace_putWorkspace]
    split
    · rename_i here
      rw [← here]
      exact keeps.finish _ _ _
    · exact keeps

theorem keepsCanvas_wait (name : String) (request : Generation.Request)
    (response : Generation.Response) (other : String) :
    (s.workspace other).KeepsCanvas ((s.wait name request response).2.workspace other)
      s.conditions s.ids :=
  keepsCanvas_leave (Workspace.keepsCanvas_begin _ _ _) other

/-- Stopping a generator while its call is in flight keeps every canvas. -/
theorem keepsCanvas_wait_close (name : String) (request : Generation.Request)
    (response : Generation.Response) (other : String) :
    (s.workspace other).KeepsCanvas
      (((s.wait name request response).2.perform name .close).2.workspace other)
      s.conditions s.ids := by
  have waits := keepsCanvas_wait (s := s) name request response other
  rw [perform, workspace_leave]
  split
  · rename_i here
    subst here
    have begun : (s.wait other request response).2 =
        s.leave other ((s.workspace other).begin s.conditions s.ids) := rfl
    rw [begun] at waits ⊢
    rw [workspace_leave, if_pos rfl] at waits ⊢
    rcases Workspace.begin_cases (s.workspace other) s.conditions s.ids with
      ⟨e, ends⟩ | ⟨session, opens, ends⟩
    · rw [ends]
      exact Workspace.keepsCanvas_close _ _ _
    · refine waits.trans (Workspace.keepsCanvas_close _ _ _) ?_
      rw [ends, Workspace.session?_putSession, if_pos rfl]
      exact Option.some_ne_none _
  · exact waits

theorem keepsCanvas_next {e : Event} (generation : e.isGeneration = true) (name : String) :
    (s.workspace name).KeepsCanvas ((s.next e).workspace name) s.conditions s.ids := by
  cases e with
  | generate target request response =>
      rw [next, generate_eq]
      exact keepsCanvas_conclude (keepsCanvas_wait target request response name) _
  | hold tag target request response => exact keepsCanvas_wait target request response name
  | release tag =>
      cases held : s.waiting.lookup tag with
      | none =>
          rw [next_release_none held]
          exact Workspace.keepsCanvas_refl _ _ _
      | some w =>
          rw [next_release held]
          have same : (s.workspace name).KeepsCanvas ((s.unhold tag).workspace name) s.conditions
              s.ids := Workspace.keepsCanvas_refl _ _ _
          exact keepsCanvas_conclude same w
  | perform target op =>
      cases op with
      | close => exact keepsCanvas_leave (Workspace.keepsCanvas_close _ _ _) name
      | _ => cases generation
  | faults save load => cases generation
  | restart => cases generation

end Canvases

section Protocol

variable {s : Studio} {records : List Record}

/-- How a call ends that started before the recent marks of its ledger. -/
structure Ends (s after : Studio) (recent : List Mark)
    (outcome : Except Generation.Failure Graph) (answer : Except Failure Graph) : Prop where
  latest : ∀ g, outcome = .ok g → Quiet recent → answer = .ok g
  superseded : ∀ g, outcome = .ok g → ¬ Quiet recent →
    answer = .error .superseded ∧ s.SameSessions after
  failed : ∀ e, outcome = .error e → answer = .error (.generation e) ∧ s.SameSessions after

/-- What holds of a studio and its ledgers after every run. -/
structure Orderly (s : Studio) (records : List Record) : Prop where
  /-- A session holds the graph with which the call of the newest start has ended, if the newest
  start or stop is a start, and nothing otherwise. -/
  pending : ∀ name epoch g,
    ((s.workspace name).session? epoch).bind Workspace.Session.pending = some g ↔
      Ready (ledger records name epoch) g
  /-- A ticket names one start. -/
  distinct : ∀ name epoch recent ticket older,
    ledger records name epoch = recent ++ .started ticket :: older →
      .started ticket ∉ recent ∧ .started ticket ∉ older
  /-- A call that is waited for ends by what came after its start. -/
  released : ∀ tag w ticket, s.waiting.lookup tag = some w → w.ticket = .ok ticket →
    ∃ recent older answer after,
      ledger records w.workspace w.epoch = recent ++ .started ticket :: older ∧
        s.release tag = some (answer, after) ∧
          Ends s after recent (s.outcome w.request w.response) answer
  /-- A call that nobody comes between gives what the model gives. -/
  generated : ∀ name request response,
    (s.generate name request response).1 =
      match (s.begin name).1 with
      | .ok _ => (s.outcome request response).mapError .generation
      | .error e => .error e
  /-- No canvas and nothing stored changes. -/
  untouched : ∀ e : Event, e.isGeneration = true → ∀ name,
    (s.workspace name).KeepsCanvas ((s.next e).workspace name) s.conditions s.ids
  /-- A call of an earlier epoch does not reach the sessions of the present one. -/
  separate : ∀ tag w, s.waiting.lookup tag = some w → w.epoch ≠ s.conditions.epoch →
    ∀ name, (s.next (.release tag)).session? name = s.session? name

theorem sameSessions_conclude {w : Waiting} {ticket : Nat} {session : Workspace.Session}
    (began : w.ticket = .ok ticket)
    (shown : (s.workspace w.workspace).session? w.epoch = some session)
    (still : (session.settle ticket (s.outcome w.request w.response)).2 = session) :
    s.SameSessions (s.conclude w).2 := by
  intro name epoch
  rw [session?_conclude began shown, still]
  split
  · rename_i here
    rw [here.1, here.2, shown]
  · rfl

theorem Followed.ends (followed : s.Followed records) {w : Waiting} {ticket : Nat}
    (inFlight : InFlight records w) (began : w.ticket = .ok ticket) {recent older : List Mark}
    (split : ledger records w.workspace w.epoch = recent ++ .started ticket :: older) :
    Ends s (s.conclude w).2 recent (s.outcome w.request w.response) (s.conclude w).1 := by
  obtain ⟨session, shown, kept⟩ := followed.session inFlight began
  have answer : (s.conclude w).1 =
      (session.settle ticket (s.outcome w.request w.response)).1 := by
    rw [conclude_of_ok began shown]
  have same := sameSessions_conclude began shown
  rw [answer]
  constructor
  case latest =>
    intro g gives quiet
    rw [gives]
    exact (kept.settle_ok split g).1 quiet
  case superseded =>
    intro g gives disturbed
    rw [gives, (kept.settle_ok split g).2 disturbed] at same
    rw [gives, (kept.settle_ok split g).2 disturbed]
    exact ⟨rfl, same rfl⟩
  case failed =>
    intro e fails
    rw [fails] at same ⊢
    exact ⟨rfl, same rfl⟩

theorem generate_answer (name : String) (request : Generation.Request)
    (response : Generation.Response) :
    (s.generate name request response).1 =
      match (s.begin name).1 with
      | .ok _ => (s.outcome request response).mapError .generation
      | .error e => .error e := by
  rw [generate_eq, wait, begin]
  dsimp only
  rcases Workspace.begin_cases (s.workspace name) s.conditions s.ids with
    ⟨e, ends⟩ | ⟨session, -, ends⟩
  · rw [ends, conclude_of_error rfl]
  · rw [ends]
    have shown : ((s.leave name ⟨.ok session.supersede.generation,
        ((s.workspace name).open? s.conditions s.ids).workspace.putSession s.conditions.epoch
          session.supersede, ((s.workspace name).open? s.conditions s.ids).ids⟩).workspace
            name).session? s.conditions.epoch = some session.supersede := by
      rw [session?_leave, if_pos rfl, Workspace.session?_putSession, if_pos rfl]
    rw [conclude_of_ok rfl shown]
    dsimp only
    rw [outcome_leave, Workspace.settle_current]

theorem Followed.separate {tag : String} {w : Waiting} (followed : s.Followed records)
    (held : s.waiting.lookup tag = some w) (earlier : w.epoch ≠ s.conditions.epoch)
    (name : String) : (s.next (.release tag)).session? name = s.session? name := by
  rw [next_release held]
  cases began : w.ticket with
  | error e =>
      rw [conclude_of_error began]
      rfl
  | ok ticket =>
      obtain ⟨session, shown, -⟩ := (followed.unhold tag).session
        (followed.inFlight (tag, w) (mem_of_lookup held)) began
      have moved := session?_conclude began shown name s.conditions.epoch
      rw [if_neg fun same => earlier same.2.symm] at moved
      have epoch : ((s.unhold tag).conclude w).2.conditions = s.conditions := by
        rw [conclude_of_ok began shown]
        rfl
      rw [session?, epoch, moved]
      rfl

theorem Followed.orderly (followed : s.Followed records) : s.Orderly records := by
  constructor
  case pending =>
    intro name epoch
    exact (followed.tied name epoch).pending_iff
  case distinct =>
    intro name epoch recent ticket older split
    have numbered := (followed.tied name epoch).numbered
    rw [split] at numbered
    exact numbered.started_once
  case released =>
    intro tag w ticket held began
    have inFlight := followed.inFlight (tag, w) (mem_of_lookup held)
    obtain ⟨recent, older, split⟩ := List.append_of_mem (inFlight ticket began).1
    have ends := (followed.unhold tag).ends inFlight began split
    have released := release_of_held held
    cases concluded : (s.unhold tag).conclude w with
    | mk answer after =>
        rw [concluded] at ends released
        exact ⟨recent, older, answer, after, split, released, ends.latest, ends.superseded,
          ends.failed⟩
  case generated => exact generate_answer
  case untouched =>
    intro e generation name
    exact keepsCanvas_next generation name
  case separate =>
    intro tag w held earlier name
    exact followed.separate held earlier name

theorem orderly_run (storage : Workspace.Storage) (service : Generation.Service)
    (events : List Event) :
    Orderly ((start storage service).run events) ((start storage service).chronicle [] events) :=
  ((followed_start storage service).run events).orderly

end Protocol

end PromptCanvas.Studio
