import PromptCanvas.Workspace.Session

/-! # Ledgers

A ledger lists, the newest first, what happened to the generator of a session: its
starts with their tickets, its stops, and the ends of its calls.  `Ready` says that the
newest start or stop is a start whose call has ended with a graph.  `Kept` ties a session
to its ledger; starting, stopping and settling keep the tie (`Kept.start`, `Kept.stop`,
`Kept.settle`). -/

set_option autoImplicit false

namespace PromptCanvas.Workspace

/-- One thing that happened to a generator. -/
inductive Mark where
  | started (ticket : Nat)
  | stopped
  | finished (ticket : Nat) (result : Except Generation.Failure Graph)

/-- Whether a mark puts whatever was before it out of date. -/
def Mark.isTurn : Mark → Bool
  | .finished _ _ => false
  | _ => true

def turns (log : List Mark) : Nat := log.countP Mark.isTurn

def Quiet (log : List Mark) : Prop := ∀ m ∈ log, m.isTurn = false

/-- The newest start or stop is a start whose call has ended with the graph since. -/
def Ready (log : List Mark) (g : Graph) : Prop :=
  ∃ ticket recent older, log = recent ++ .started ticket :: older ∧ Quiet recent ∧
    .finished ticket (.ok g) ∈ recent

/-- Every ticket is the number of its start among the starts and stops, and no call ends
before it starts. -/
def Numbered : List Mark → Prop
  | [] => True
  | .started ticket :: older => ticket = turns older + 1 ∧ Numbered older
  | .stopped :: older => Numbered older
  | .finished ticket _ :: older => ticket ≤ turns older ∧ Numbered older

def Awaits (log : List Mark) (ticket : Nat) : Prop :=
  .started ticket ∈ log ∧ ∀ result, .finished ticket result ∉ log

section Counting

variable {log recent older : List Mark} {ticket : Nat}

theorem turns_append (recent older : List Mark) :
    turns (recent ++ older) = turns recent + turns older := List.countP_append

theorem turns_started (ticket : Nat) (older : List Mark) :
    turns (.started ticket :: older) = turns older + 1 :=
  List.countP_cons_of_pos rfl

theorem turns_stopped (older : List Mark) : turns (.stopped :: older) = turns older + 1 :=
  List.countP_cons_of_pos rfl

theorem turns_finished (ticket : Nat) (result : Except Generation.Failure Graph)
    (older : List Mark) : turns (.finished ticket result :: older) = turns older :=
  List.countP_cons_of_neg Bool.false_ne_true

theorem quiet_iff : Quiet recent ↔ turns recent = 0 := by
  rw [turns, List.countP_eq_zero]
  exact forall₂_congr fun m _ => Bool.eq_false_iff

theorem Numbered.tail {m : Mark} (numbered : Numbered (m :: log)) : Numbered log := by
  cases m with
  | started ticket => exact numbered.2
  | stopped => exact numbered
  | finished ticket result => exact numbered.2

theorem Numbered.of_append (numbered : Numbered (recent ++ older)) : Numbered older := by
  induction recent with
  | nil => exact numbered
  | cons m recent ih => exact ih numbered.tail

theorem Numbered.ticket_eq (numbered : Numbered (recent ++ .started ticket :: older)) :
    ticket = turns older + 1 := numbered.of_append.1

/-- The newest turn of a log is the start of a ticket just if that is the count of its turns. -/
theorem Numbered.quiet_iff (numbered : Numbered (recent ++ .started ticket :: older)) :
    Quiet recent ↔ ticket = turns (recent ++ .started ticket :: older) := by
  have same := numbered.ticket_eq
  rw [Workspace.quiet_iff, turns_append, turns_started]
  omega

theorem Numbered.ticket_le (numbered : Numbered log) (started : .started ticket ∈ log) :
    ticket ≤ turns log := by
  obtain ⟨recent, older, rfl⟩ := List.append_of_mem started
  have same := numbered.ticket_eq
  rw [turns_append, turns_started]
  omega

theorem Numbered.started_once (numbered : Numbered (recent ++ .started ticket :: older)) :
    .started ticket ∉ recent ∧ .started ticket ∉ older := by
  have same := numbered.ticket_eq
  constructor
  · intro again
    obtain ⟨newest, between, rfl⟩ := List.append_of_mem again
    rw [List.append_assoc, List.cons_append] at numbered
    have other := numbered.ticket_eq
    rw [turns_append, turns_started] at other
    omega
  · intro again
    have small := numbered.of_append.2.ticket_le again
    omega

theorem Numbered.finished_le (numbered : Numbered log)
    {result : Except Generation.Failure Graph} (finished : .finished ticket result ∈ log) :
    ticket ≤ turns log := by
  obtain ⟨recent, older, rfl⟩ := List.append_of_mem finished
  have bound := numbered.of_append.1
  rw [turns_append, turns_finished]
  omega

theorem Awaits.cons (awaits : Awaits log ticket) {m : Mark}
    (other : ∀ result, m ≠ .finished ticket result) : Awaits (m :: log) ticket := by
  refine ⟨List.mem_cons_of_mem m awaits.1, ?_⟩
  intro result member
  rcases List.mem_cons.mp member with same | old
  · exact other result same.symm
  · exact awaits.2 result old

theorem Numbered.awaits_started (numbered : Numbered log) :
    Awaits (.started (turns log + 1) :: log) (turns log + 1) := by
  refine ⟨List.mem_cons_self, ?_⟩
  intro result member
  rcases List.mem_cons.mp member with same | old
  · cases same
  · have small := numbered.finished_le old
    omega

end Counting

section Readiness

variable {log : List Mark} {g : Graph}

theorem not_ready_nil : ¬ Ready [] g := by
  rintro ⟨ticket, recent, older, split, -⟩
  cases recent <;> cases split

theorem not_ready_turn {m : Mark} (turn : m.isTurn = true) : ¬ Ready (m :: log) g := by
  rintro ⟨ticket, recent, older, split, quiet, finished⟩
  cases recent with
  | nil => cases finished
  | cons n recent =>
      have same := (List.cons.inj split).1
      rw [same, quiet n List.mem_cons_self] at turn
      cases turn

theorem ready_finished {ticket : Nat} {result : Except Generation.Failure Graph} :
    Ready (.finished ticket result :: log) g ↔
      Ready log g ∨ result = .ok g ∧ ∃ recent older, log = recent ++ .started ticket :: older ∧
        Quiet recent := by
  constructor
  · rintro ⟨newest, recent, older, split, quiet, finished⟩
    cases recent with
    | nil => cases finished
    | cons m recent =>
        obtain ⟨rfl, rest⟩ := List.cons.inj split
        have quietRest : Quiet recent := fun m member => quiet m (List.mem_cons_of_mem _ member)
        rcases List.mem_cons.mp finished with same | before
        · cases same
          exact .inr ⟨rfl, recent, older, rest, quietRest⟩
        · exact .inl ⟨newest, recent, older, rest, quietRest, before⟩
  · have quietCons : ∀ recent, Quiet recent → Quiet (.finished ticket result :: recent) := by
      intro recent quiet
      rw [Quiet, List.forall_mem_cons]
      exact ⟨rfl, quiet⟩
    rintro (⟨newest, recent, older, rfl, quiet, before⟩ | ⟨rfl, recent, older, rfl, quiet⟩)
    · exact ⟨newest, _ :: recent, older, rfl, quietCons recent quiet,
        List.mem_cons_of_mem _ before⟩
    · exact ⟨ticket, _ :: recent, older, rfl, quietCons recent quiet, List.mem_cons_self⟩

theorem Ready.finished (ready : Ready log g) (numbered : Numbered log) :
    .finished (turns log) (.ok g) ∈ log := by
  obtain ⟨ticket, recent, older, rfl, quiet, finished⟩ := ready
  rw [← numbered.quiet_iff.mp quiet]
  exact List.mem_append_left _ finished

end Readiness

structure Kept (s : Session) (log : List Mark) : Prop where
  count : s.generation = turns log
  numbered : Numbered log
  pending : ∀ g, s.pending = some g ↔ Ready log g

section Keeping

variable {s t : Session} {log : List Mark}

theorem none_iff (never : ∀ g, ¬ Ready log g) (g : Graph) : none = some g ↔ Ready log g :=
  iff_of_false (Option.some_ne_none g).symm (never g)

theorem kept_new (c : Canvas) : Kept ⟨c, none, 0⟩ [] :=
  ⟨rfl, trivial, none_iff fun _ => not_ready_nil⟩

theorem Kept.congr (kept : Kept s log) (sameCount : t.generation = s.generation)
    (samePending : t.pending = s.pending) : Kept t log :=
  ⟨sameCount.trans kept.count, kept.numbered, samePending ▸ kept.pending⟩

theorem Kept.start (kept : Kept s log) :
    Kept s.supersede (.started s.supersede.generation :: log) := by
  have next : s.supersede.generation = turns log + 1 := congrArg (· + 1) kept.count
  exact ⟨next.trans (turns_started _ log).symm, ⟨next, kept.numbered⟩,
    none_iff fun _ => not_ready_turn rfl⟩

theorem Kept.stop (kept : Kept s log) : Kept s.supersede (.stopped :: log) := by
  have next : s.supersede.generation = turns log + 1 := congrArg (· + 1) kept.count
  exact ⟨next.trans (turns_stopped log).symm, kept.numbered, none_iff fun _ => not_ready_turn rfl⟩

theorem Kept.settle (kept : Kept s log) {ticket : Nat} (awaits : Awaits log ticket)
    (result : Except Generation.Failure Graph) :
    Kept (s.settle ticket result).2 (.finished ticket result :: log) := by
  obtain ⟨recent, older, split⟩ := List.append_of_mem awaits.1
  have numbered : Numbered (.finished ticket result :: log) :=
    ⟨kept.numbered.ticket_le awaits.1, kept.numbered⟩
  cases result with
  | error e =>
      refine ⟨kept.count, numbered, ?_⟩
      intro g
      rw [ready_finished]
      exact (kept.pending g).trans (by simp)
  | ok h =>
      rw [Session.settle]
      split
      · rename_i current
        have quiet : Quiet recent := by
          have whole := kept.numbered
          rw [split] at whole
          rw [whole.quiet_iff, ← split]
          exact current.trans kept.count
        refine ⟨kept.count, numbered, ?_⟩
        intro g
        rw [ready_finished]
        constructor
        · intro same
          cases same
          exact .inr ⟨rfl, recent, older, split, quiet⟩
        · rintro (ready | ⟨same, -⟩)
          · -- A graph that was ready before is that of the same ticket, which has not ended.
            have finished := ready.finished kept.numbered
            rw [← kept.count, ← current] at finished
            exact absurd finished (awaits.2 (.ok g))
          · cases same
            rfl
      · rename_i outdated
        refine ⟨kept.count, numbered, ?_⟩
        intro g
        rw [ready_finished]
        refine (kept.pending g).trans ⟨.inl, ?_⟩
        rintro (ready | ⟨-, others, rest, again, quiet⟩)
        · exact ready
        · have whole := kept.numbered
          rw [again] at whole
          rw [whole.quiet_iff, ← again, ← kept.count] at quiet
          exact absurd quiet outdated

theorem settle_current (s : Session) (result : Except Generation.Failure Graph) :
    (s.settle s.generation result).1 = result.mapError .generation := by
  cases result with
  | error e => rfl
  | ok g =>
      rw [Session.settle, if_pos rfl]
      rfl

/-- A call gives its graph just if nothing superseded it since its start. -/
theorem Kept.settle_ok (kept : Kept s log) {ticket : Nat} {recent older : List Mark}
    (split : log = recent ++ .started ticket :: older) (g : Graph) :
    (Quiet recent → (s.settle ticket (.ok g)).1 = .ok g) ∧
      (¬ Quiet recent → s.settle ticket (.ok g) = (.error .superseded, s)) := by
  have whole := kept.numbered
  rw [split] at whole
  rw [whole.quiet_iff, ← split, ← kept.count, Session.settle]
  exact ⟨fun current => by rw [if_pos current], fun outdated => by rw [if_neg outdated]⟩

end Keeping

end PromptCanvas.Workspace
