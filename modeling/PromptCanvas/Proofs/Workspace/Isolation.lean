import PromptCanvas.Proofs.Workspace.Run

/-! # Isolation of workspaces

Identifiers are drawn at random, so a step of a run is an event together with the supply
that it draws from; a run in which every step goes on where the one before it stopped is
one case (`foldl_follow_drawn`).  `Studio.trace` is what one workspace sees of a run.
When every operation on another workspace is removed from a run, what the workspace sees
of the steps that are left stays the same (`trace_own`). -/

set_option autoImplicit false

namespace PromptCanvas.Studio

section Seeing

/-- A studio that draws its next identifiers from another supply. -/
def supplied (s : Studio) (ids : IdSupply) : Studio := { s with ids := ids }

def follow (s : Studio) (step : IdSupply × Event) : Studio := (s.supplied step.1).next step.2

/-- Whether an event is an operation or a call on the workspace, or one on all of them. -/
def concerns (s : Studio) (name : String) : Event → Bool
  | .perform target _ => target == name
  | .generate target _ _ => target == name
  | .hold _ target _ _ => target == name
  | .release tag => (s.waiting.lookup tag).any fun w => w.workspace == name
  | .faults _ _ => true
  | .restart => true

/-- A step of a run as a workspace sees it: what is answered, and what the workspace has then,
its stored document and all its sessions. -/
structure Sight where
  step : IdSupply × Event
  own : Bool
  reply : Reply
  workspace : Workspace

def trace (s : Studio) (name : String) : List (IdSupply × Event) → List Sight
  | [] => []
  | step :: steps =>
      { step := step
        own := s.concerns name step.2
        reply := (s.supplied step.1).reply step.2
        workspace := (s.follow step).workspace name } :: (s.follow step).trace name steps

/-- The steps of a run in which each event goes on with the supply that the last one left. -/
def drawn (s : Studio) : List Event → List (IdSupply × Event)
  | [] => []
  | e :: events => (s.ids, e) :: (s.next e).drawn events

theorem map_snd_drawn (s : Studio) (events : List Event) :
    (s.drawn events).map Prod.snd = events := by
  induction events generalizing s with
  | nil => rfl
  | cons e events ih => exact congrArg (e :: ·) (ih (s.next e))

theorem foldl_follow_drawn (s : Studio) (events : List Event) :
    (s.drawn events).foldl follow s = s.run events := by
  induction events generalizing s with
  | nil => rfl
  | cons e events ih => exact ih (s.next e)

end Seeing

/-- Two studios that a workspace cannot tell apart, whatever they draw next. -/
structure Alike (name : String) (s t : Studio) : Prop where
  service : t.service = s.service
  conditions : t.conditions = s.conditions
  workspace : t.workspace name = s.workspace name
  held : ∀ tag w, s.waiting.lookup tag = some w → w.workspace = name →
    t.waiting.lookup tag = some w

section Alikeness

variable {name : String} {s t : Studio}

theorem Alike.supplied (alike : Alike name s t) (ids others : IdSupply) :
    Alike name (s.supplied ids) (t.supplied others) :=
  ⟨alike.service, alike.conditions, alike.workspace, alike.held⟩

theorem Alike.leave (alike : Alike name s t) {α : Type} (step : Workspace.Step α) :
    Alike name (s.leave name step) (t.leave name step) := by
  refine ⟨alike.service, alike.conditions, ?_, alike.held⟩
  rw [workspace_leave, workspace_leave, if_pos rfl, if_pos rfl]

theorem Alike.leave_elsewhere (alike : Alike name s t) {other : String} (elsewhere : other ≠ name)
    {α : Type} (step : Workspace.Step α) : Alike name (s.leave other step) t := by
  refine ⟨alike.service, alike.conditions, ?_, alike.held⟩
  rw [workspace_leave, if_neg elsewhere.symm, alike.workspace]

theorem lookup_unhold (s : Studio) (tag other : String) :
    (s.unhold tag).waiting.lookup other = if other = tag then none else s.waiting.lookup other := by
  rw [unhold]
  split
  · rename_i same
    rw [List.lookup_eq_none_iff]
    intro held member
    have different := (List.mem_filter.mp member).2
    rw [same, bne_comm]
    exact different
  · rename_i different
    exact Workspace.lookup_filter_ne _ different

theorem lookup_hold (s : Studio) (tag name other : String) (request : Generation.Request)
    (response : Generation.Response) :
    (s.hold tag name request response).waiting.lookup other =
      if other = tag then some (s.wait name request response).1 else s.waiting.lookup other := by
  rw [hold, List.lookup_cons]
  split
  · rename_i same
    rw [if_pos (beq_iff_eq.mp same)]
  · rename_i different
    rw [if_neg (by simpa using different)]
    exact Workspace.lookup_filter_ne _ (by simpa using different)

/-- A call of the workspace that is held under the tag goes from both, any other from one. -/
theorem Alike.unhold_elsewhere (alike : Alike name s t) (tag : String) :
    Alike name (s.unhold tag) t := by
  refine ⟨alike.service, alike.conditions, alike.workspace, ?_⟩
  intro other w held own
  rw [lookup_unhold] at held
  split at held
  · cases held
  · exact alike.held other w held own

theorem Alike.unhold (alike : Alike name s t) (tag : String) :
    Alike name (s.unhold tag) (t.unhold tag) := by
  refine ⟨alike.service, alike.conditions, alike.workspace, ?_⟩
  intro other w held own
  rw [lookup_unhold] at held ⊢
  split at held
  · cases held
  · rename_i different
    rw [if_neg different]
    exact alike.held other w held own

theorem Alike.conclude (alike : Alike name s t) {w : Waiting} (own : w.workspace = name) :
    (t.conclude w).1 = (s.conclude w).1 ∧ Alike name (s.conclude w).2 (t.conclude w).2 := by
  rcases conclude_cases s w with ⟨e, began, ends⟩ | ⟨ticket, began, ends⟩
  · rcases conclude_cases t w with ⟨e', began', ends'⟩ | ⟨ticket', began', -⟩
    · rw [began] at began'
      cases began'
      rw [ends, ends']
      exact ⟨rfl, alike⟩
    · rw [began] at began'
      cases began'
  · rcases conclude_cases t w with ⟨e', began', -⟩ | ⟨ticket', began', ends'⟩
    · rw [began] at began'
      cases began'
    · rw [began] at began'
      cases began'
      rw [ends, ends', own, alike.service, alike.workspace]
      refine ⟨rfl, alike.service, alike.conditions, ?_, alike.held⟩
      rw [workspace_putWorkspace, workspace_putWorkspace, if_pos rfl, if_pos rfl]

theorem Alike.conclude_elsewhere (alike : Alike name s t) {w : Waiting}
    (elsewhere : w.workspace ≠ name) : Alike name (s.conclude w).2 t := by
  rcases conclude_cases s w with ⟨e, -, ends⟩ | ⟨ticket, -, ends⟩
  · rw [ends]
    exact alike
  · rw [ends]
    refine ⟨alike.service, alike.conditions, ?_, alike.held⟩
    dsimp only
    rw [workspace_putWorkspace, if_neg elsewhere.symm]
    exact alike.workspace

end Alikeness

section Steps

variable {name : String} {s t : Studio}

theorem Alike.wait (alike : Alike name s t) (ids : t.ids = s.ids) (request : Generation.Request)
    (response : Generation.Response) :
    (t.wait name request response).1 = (s.wait name request response).1 ∧
      Alike name (s.wait name request response).2 (t.wait name request response).2 := by
  rw [Studio.wait, Studio.wait, begin, begin, alike.workspace, alike.conditions, ids]
  exact ⟨rfl, alike.leave _⟩

theorem Alike.hold (alike : Alike name s t) (ids : t.ids = s.ids) (tag : String)
    (request : Generation.Request) (response : Generation.Response) :
    Alike name (s.hold tag name request response) (t.hold tag name request response) := by
  obtain ⟨same, waits⟩ := alike.wait ids request response
  refine ⟨waits.service, waits.conditions, waits.workspace, ?_⟩
  intro other w held own
  rw [lookup_hold] at held ⊢
  split at held
  · rename_i here
    rw [if_pos here, same]
    exact held
  · rename_i different
    rw [if_neg different]
    exact alike.held other w held own

theorem Alike.hold_elsewhere (alike : Alike name s t) {other : String} (elsewhere : other ≠ name)
    (tag : String) (request : Generation.Request) (response : Generation.Response) :
    Alike name (s.hold tag other request response) t := by
  have waits : Alike name (s.wait other request response).2 t := alike.leave_elsewhere elsewhere _
  refine ⟨waits.service, waits.conditions, waits.workspace, ?_⟩
  intro held w found own
  rw [lookup_hold] at found
  split at found
  · cases found
    exact absurd own elsewhere
  · exact alike.held held w found own

/-- An event that concerns the workspace does the same to it in either studio. -/
theorem Alike.next (alike : Alike name s t) (ids : t.ids = s.ids) {e : Event}
    (own : s.concerns name e = true) :
    t.concerns name e = true ∧ t.reply e = s.reply e ∧ Alike name (s.next e) (t.next e) := by
  cases e with
  | perform target op =>
      obtain rfl : target = name := by simpa [concerns] using own
      refine ⟨own, ?_, ?_⟩
      · simp only [reply, perform, alike.workspace, alike.conditions, ids]
      · simp only [next, perform, alike.workspace, alike.conditions, ids]
        exact alike.leave _
  | generate target request response =>
      obtain rfl : target = name := by simpa [concerns] using own
      obtain ⟨same, waits⟩ := alike.wait ids request response
      obtain ⟨answer, ends⟩ := waits.conclude (w := (s.wait target request response).1) rfl
      rw [Studio.next, Studio.next, reply, reply, generate_eq, generate_eq, same]
      exact ⟨own, congrArg Reply.graph answer, ends⟩
  | hold tag target request response =>
      obtain rfl : target = name := by simpa [concerns] using own
      exact ⟨own, rfl, alike.hold ids tag request response⟩
  | release tag =>
      rw [concerns] at own
      cases held : s.waiting.lookup tag with
      | none =>
          rw [held] at own
          cases own
      | some w =>
          rw [held, Option.any_some, beq_iff_eq] at own
          have kept := alike.held tag w held own
          obtain ⟨answer, ends⟩ := (alike.unhold tag).conclude own
          rw [concerns, reply_release held, reply_release kept, next_release held,
            next_release kept, kept, answer]
          exact ⟨by simpa using own, rfl, ends⟩
  | faults save load =>
      refine ⟨rfl, rfl, alike.service, ?_, alike.workspace, alike.held⟩
      simp only [Studio.next, setFaults, alike.conditions]
  | restart =>
      refine ⟨rfl, rfl, alike.service, ?_, alike.workspace, alike.held⟩
      simp only [Studio.next, Studio.restart, alike.conditions]

/-- An event that does not concern the workspace is not seen in it. -/
theorem Alike.next_elsewhere (alike : Alike name s t) {e : Event}
    (elsewhere : s.concerns name e = false) : Alike name (s.next e) t := by
  cases e with
  | perform target op =>
      have other : target ≠ name := by simpa [concerns] using elsewhere
      exact alike.leave_elsewhere other _
  | generate target request response =>
      have other : target ≠ name := by simpa [concerns] using elsewhere
      rw [Studio.next, generate_eq]
      exact (alike.leave_elsewhere other _).conclude_elsewhere other
  | hold tag target request response =>
      have other : target ≠ name := by simpa [concerns] using elsewhere
      exact alike.hold_elsewhere other tag request response
  | release tag =>
      rw [concerns] at elsewhere
      cases held : s.waiting.lookup tag with
      | none =>
          rw [next_release_none held]
          exact alike
      | some w =>
          rw [held, Option.any_some, beq_eq_false_iff_ne] at elsewhere
          rw [next_release held]
          exact (alike.unhold_elsewhere tag).conclude_elsewhere elsewhere
  | faults save load => cases elsewhere
  | restart => cases elsewhere

/-- The run that is left when every operation on another workspace is removed shows the workspace
what it saw of its own steps. -/
theorem Alike.trace (alike : Alike name s t) (steps : List (IdSupply × Event)) :
    t.trace name (((s.trace name steps).filter Sight.own).map Sight.step) =
      (s.trace name steps).filter Sight.own := by
  induction steps generalizing s t with
  | nil => rfl
  | cons step steps ih =>
      rw [Studio.trace]
      cases own : s.concerns name step.2 with
      | true =>
          obtain ⟨mine, answer, after⟩ := (alike.supplied step.1 step.1).next rfl own
          have followed : Alike name (s.follow step) (t.follow step) := after
          have mine : t.concerns name step.2 = true := mine
          rw [List.filter_cons_of_pos rfl, List.map_cons, Studio.trace]
          dsimp only
          rw [mine, answer, followed.workspace, ih followed]
      | false =>
          have unseen : Alike name (s.supplied step.1) t := alike.supplied step.1 t.ids
          rw [List.filter_cons_of_neg (by simp)]
          exact ih (unseen.next_elsewhere own)

end Steps

/-- What a workspace sees of a run, any steps with any identifiers drawn, is what it sees of the
run from which every operation on another workspace is removed.  The runs of a studio are such
runs. -/
theorem trace_own (s : Studio) (name : String) :
    (∀ steps, s.trace name (((s.trace name steps).filter Sight.own).map Sight.step) =
      (s.trace name steps).filter Sight.own) ∧
      ∀ events, (s.drawn events).map Prod.snd = events ∧
        (s.drawn events).foldl follow s = s.run events := by
  constructor
  · exact Alike.trace ⟨rfl, rfl, rfl, fun _ _ held _ => held⟩
  · exact fun events => ⟨map_snd_drawn s events, foldl_follow_drawn s events⟩

end PromptCanvas.Studio
