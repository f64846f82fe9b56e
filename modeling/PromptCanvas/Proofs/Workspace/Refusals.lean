import PromptCanvas.Proofs.Workspace.Protocol

/-! # Refusals

A refusal is a failure that is not one of the store: an operation or a call that ends in
one does nothing but open its workspace.  In every studio that can be reached, whoever
else writes to its store, a refusal touches no canvas and nothing that is stored, and
unless it is that of a new generation it touches no generator either
(`refused_intact`). -/

set_option autoImplicit false

namespace PromptCanvas

namespace Workspace

section Refusals

/-- Whether what was asked is at fault, and not the store. -/
def Failure.isRefusal : Failure → Bool
  | .store _ => false
  | _ => true

variable {w : Workspace} {c : Conditions} {ids : IdSupply} {e : Failure}

/-- An operation that fails stops at the session that it opened, or before, unless the store
could not save what it did. -/
theorem perform_failed {op : Operation} (failed : (w.perform c op ids).result = .error e) :
    ((w.perform c op ids).workspace = w ∨
      (w.perform c op ids).workspace = (w.open? c ids).workspace) ∨
      ∃ fault, e = .store fault ∧ c.saveFault = some fault := by
  rw [Workspace.perform] at failed ⊢
  cases read : op.task with
  | error e => exact .inl (.inl rfl)
  | ok task =>
      rw [read] at failed
      dsimp only at failed ⊢
      rcases runTask_cases w c ids task with
        ⟨e', -, ends⟩ | ⟨s, -, ⟨e', rest, -, ends⟩ | ⟨change, rest, -, ends⟩⟩
      · rw [ends]
        exact .inl (.inl rfl)
      · rw [ends]
        exact .inl (.inr rfl)
      · rw [ends] at failed
        rcases commit_cases (w.open? c ids).workspace c rest change with
          ⟨stored, done, -⟩ | ⟨fault, -, faulty, -, unsaved⟩
        · rw [done] at failed
          cases failed
        · rw [unsaved] at failed
          exact .inr ⟨fault, (Except.error.inj failed).symm, faulty⟩

theorem perform_refused {op : Operation} (refused : (w.perform c op ids).result = .error e)
    (refusal : e.isRefusal = true) :
    (w.perform c op ids).workspace = w ∨
      (w.perform c op ids).workspace = (w.open? c ids).workspace := by
  rcases perform_failed refused with stops | ⟨fault, rfl, -⟩
  · exact stops
  · cases refusal

theorem session?_open?_of_some (c : Conditions) (ids : IdSupply) {epoch : Nat} {s : Session}
    (shown : w.session? epoch = some s) : (w.open? c ids).workspace.session? epoch = some s := by
  rcases open?_cases w c ids with ⟨t, -, opens⟩ | ⟨e, -, -, opens⟩ | ⟨j, none, -, opens⟩
  · rw [opens]
    exact shown
  · rw [opens]
    exact shown
  · rw [opens, session?_putSession]
    split
    · rename_i here
      rw [← here, shown] at none
      cases none
    · exact shown

theorem pending_open? (w : Workspace) (c : Conditions) (ids : IdSupply) (epoch : Nat) :
    ((w.open? c ids).workspace.session? epoch).bind Session.pending =
      (w.session? epoch).bind Session.pending := by
  cases shown : w.session? epoch with
  | some s => rw [session?_open?_of_some c ids shown]
  | none =>
      rcases open?_cases w c ids with ⟨t, -, opens⟩ | ⟨e, -, -, opens⟩ | ⟨j, -, -, opens⟩
      · rw [opens, shown]
      · rw [opens, shown]
      · rw [opens, session?_putSession]
        split
        · rfl
        · rw [shown]

end Refusals

theorem Session.settle_refused {s : Session} {ticket : Nat}
    {result : Except Generation.Failure Graph} {e : Failure}
    (refused : (s.settle ticket result).1 = .error e) : (s.settle ticket result).2 = s := by
  unfold Session.settle at refused ⊢
  cases result with
  | error e => rfl
  | ok g =>
      dsimp only at refused ⊢
      split at refused
      · cases refused
      · rename_i outdated
        rw [if_neg outdated]

end Workspace

namespace Studio

open Workspace (Failure)

/-- The studios that events lead to from an empty store, while others may write to it. -/
inductive Reachable : Studio → Prop
  | start (storage : Workspace.Storage) (service : Generation.Service) :
      Reachable (start storage service)
  | next {s : Studio} (reached : Reachable s) (e : Event) : Reachable (s.next e)
  | write {s : Studio} (reached : Reachable s) (name : String)
      (document : Option Workspace.Document) :
      Reachable (s.putWorkspace name { s.workspace name with stored := document })

section Reaching

variable {s : Studio}

theorem Reachable.followed (reached : s.Reachable) : ∃ records, s.Followed records := by
  induction reached with
  | start storage service => exact ⟨[], followed_start storage service⟩
  | @next s reached e ih =>
      obtain ⟨records, followed⟩ := ih
      exact ⟨s.marks e ++ records, followed.next e⟩
  | @write s reached name document ih =>
      obtain ⟨records, followed⟩ := ih
      refine ⟨records, followed.congr ?_ rfl⟩
      intro other epoch
      rw [workspace_putWorkspace]
      split
      · rename_i here
        rw [here]
        rfl
      · rfl

theorem Reachable.session (reached : s.Reachable) {held : String × Waiting}
    (member : held ∈ s.waiting) {ticket : Nat} (began : held.2.ticket = .ok ticket) :
    ∃ session, (s.workspace held.2.workspace).session? held.2.epoch = some session := by
  obtain ⟨records, followed⟩ := reached.followed
  obtain ⟨session, shown, -⟩ := followed.session (followed.inFlight held member) began
  exact ⟨session, shown⟩

end Reaching

section Keeping

variable {s after : Studio}

/-- The call has the newest ticket of its session, so its result would be taken. -/
def Current (s : Studio) (w : Waiting) : Prop :=
  ∃ session, (s.workspace w.workspace).session? w.epoch = some session ∧
    w.ticket = .ok session.generation

/-- No workspace shows or stores anything else than before. -/
def KeepsCanvases (s after : Studio) : Prop :=
  ∀ name, (s.workspace name).KeepsCanvas (after.workspace name) s.conditions s.ids

/-- Every session holds the graph that it held, and a call in flight counts just if it did. -/
structure KeepsGenerators (s after : Studio) : Prop where
  pending : ∀ name epoch,
    ((after.workspace name).session? epoch).bind Workspace.Session.pending =
      ((s.workspace name).session? epoch).bind Workspace.Session.pending
  current : ∀ held ∈ after.waiting, after.Current held.2 ↔ s.Current held.2

theorem current_congr {w : Waiting}
    (same : ∀ ticket, w.ticket = .ok ticket →
      (after.workspace w.workspace).session? w.epoch =
        (s.workspace w.workspace).session? w.epoch) :
    after.Current w ↔ s.Current w := by
  refine exists_congr fun session => ?_
  constructor
  · rintro ⟨shown, began⟩
    exact ⟨same _ began ▸ shown, began⟩
  · rintro ⟨shown, began⟩
    exact ⟨(same _ began).trans shown, began⟩

theorem SameSessions.keepsGenerators (same : s.SameSessions after) : s.KeepsGenerators after := by
  constructor
  case pending =>
    intro name epoch
    rw [same name epoch]
  case current =>
    intro held _
    exact current_congr fun _ _ => same held.2.workspace held.2.epoch

theorem Reachable.keepsGenerators_open (reached : s.Reachable) {α : Type} {name : String}
    {step : Workspace.Step α}
    (opened : step.workspace = ((s.workspace name).open? s.conditions s.ids).workspace) :
    s.KeepsGenerators (s.leave name step) := by
  constructor
  case pending =>
    intro other epoch
    rw [session?_leave]
    split
    · rename_i here
      rw [opened, here, Workspace.pending_open?]
    · rfl
  case current =>
    intro held member
    apply current_congr
    intro ticket began
    obtain ⟨session, shown⟩ := reached.session member began
    rw [session?_leave, shown]
    split
    · rename_i here
      rw [here] at shown
      rw [opened, Workspace.session?_open?_of_some _ _ shown]
    · rfl

end Keeping

section Refusals

variable {s : Studio} {e : Failure}

/-- A step that stops at the session that it opened, or before, keeps every canvas. -/
theorem keepsCanvases_leave {α : Type} {name : String} {step : Workspace.Step α}
    (stops : step.workspace = s.workspace name ∨
      step.workspace = ((s.workspace name).open? s.conditions s.ids).workspace) :
    s.KeepsCanvases (s.leave name step) := by
  refine keepsCanvas_leave ?_
  rcases stops with same | opened
  · rw [same]
    exact Workspace.keepsCanvas_refl _ _ _
  · rw [opened]
    exact Workspace.keepsCanvas_open? _ _ _

theorem Reachable.perform_refused (reached : s.Reachable) {name : String}
    {op : Workspace.Operation} (refused : (s.perform name op).1 = .error e)
    (refusal : e.isRefusal = true) :
    s.KeepsCanvases (s.perform name op).2 ∧ s.KeepsGenerators (s.perform name op).2 := by
  rw [Studio.perform] at refused ⊢
  dsimp only at refused ⊢
  have stops := Workspace.perform_refused refused refusal
  refine ⟨keepsCanvases_leave stops, ?_⟩
  rcases stops with same | opened
  · apply SameSessions.keepsGenerators
    intro other epoch
    rw [session?_leave]
    split
    · rename_i here
      rw [same, here]
    · rfl
  · exact reached.keepsGenerators_open opened

/-- Where saving does not fail, an operation that fails keeps every canvas. -/
theorem keepsCanvases_failed (saves : s.conditions.saveFault = none) {name : String}
    {op : Workspace.Operation} (failed : (s.perform name op).1 = .error e) :
    s.KeepsCanvases (s.perform name op).2 := by
  rw [Studio.perform] at failed ⊢
  rcases Workspace.perform_failed failed with stops | ⟨fault, -, faulty⟩
  · exact keepsCanvases_leave stops
  · rw [saves] at faulty
    cases faulty

theorem Reachable.conclude_refused (reached : s.Reachable) {tag : String} {w : Waiting}
    (held : s.waiting.lookup tag = some w)
    (refused : ((s.unhold tag).conclude w).1 = .error e) :
    s.SameSessions ((s.unhold tag).conclude w).2 := by
  cases began : w.ticket with
  | error e =>
      rw [conclude_of_error began]
      exact fun _ _ => rfl
  | ok ticket =>
      obtain ⟨session, shown⟩ := reached.session (mem_of_lookup held) began
      have still : ((s.unhold tag).workspace w.workspace).session? w.epoch = some session := shown
      rw [conclude_of_ok began still] at refused
      dsimp only at refused
      have kept := Workspace.Session.settle_refused refused
      exact sameSessions_conclude began still kept

/-- Whatever is refused leaves every canvas and every stored document as it was, and unless it
is a new generation that is refused every held graph and every call in flight. -/
theorem refused_intact (reached : s.Reachable) (refusal : e.isRefusal = true) :
    (∀ name op, (s.perform name op).1 = .error e →
      s.KeepsCanvases (s.perform name op).2 ∧ s.KeepsGenerators (s.perform name op).2) ∧
    (∀ name request response, (s.generate name request response).1 = .error e →
      s.KeepsCanvases (s.generate name request response).2) ∧
    ∀ tag after, s.release tag = some (.error e, after) →
      s.KeepsCanvases after ∧ s.KeepsGenerators after := by
  refine ⟨fun name op refused => reached.perform_refused refused refusal, ?_, ?_⟩
  · intro name request response _
    exact keepsCanvas_next (e := .generate name request response) rfl
  · intro tag after released
    cases held : s.waiting.lookup tag with
    | none =>
        rw [release, held] at released
        cases released
    | some w =>
        have ends := next_release held
        have same : ((s.unhold tag).conclude w).1 = .error e →
            s.SameSessions ((s.unhold tag).conclude w).2 := reached.conclude_refused held
        rw [release_of_held held] at released
        cases concluded : (s.unhold tag).conclude w with
        | mk answer ended =>
            rw [concluded] at released ends same
            cases released
            refine ⟨?_, (same rfl).keepsGenerators⟩
            intro name
            rw [← show s.next (.release tag) = after from ends]
            exact keepsCanvas_next (e := .release tag) rfl name

def calling : Studio :=
  (start .memory ⟨"", "m"⟩).next (.hold "t" "w" ⟨"Greet", some "key"⟩ (.reply .none))

theorem refused_intact_loop :
    calling.Reachable ∧
      (calling.perform "w" (.connect "n1" "n1")).1 = .error (.invalidFlow (.selfLoop "n1")) ∧
        calling.KeepsCanvases (calling.perform "w" (.connect "n1" "n1")).2 ∧
          calling.KeepsGenerators (calling.perform "w" (.connect "n1" "n1")).2 := by
  have reached : calling.Reachable := (Reachable.start _ _).next _
  have refused : (calling.perform "w" (.connect "n1" "n1")).1 =
      .error (.invalidFlow (.selfLoop "n1")) := rfl
  exact ⟨reached, refused, (refused_intact reached rfl).1 "w" _ refused⟩

end Refusals

end Studio

end PromptCanvas
