import PromptCanvas.Proofs.Workspace.Refusals
import PromptCanvas.Web.Server

/-! # Answers of failure

A request either leaves the studio of the server alone or is served, and then its answer has
the status of what was served (`Server.handle_cases`).  An operation that succeeds is answered
with a status below 400, one that fails has not come beyond opening its workspace, and a
generation touches no canvas.  So an answer with a status from 400 on changes no canvas, but for
the answer to what was carried out and holds a surrogate, which cannot be sent
(`Server.failed_intact`). -/

set_option autoImplicit false

namespace PromptCanvas.Web.Server

section Serving

variable {s : Server} {route : Route} {user : String} {c : Circumstances} {demand : Demand}

theorem successStatus_lt (route : Route) : successStatus route < 400 := by
  rw [successStatus.eq_def]
  split <;> decide

theorem status_ofAnswer_lt {status : Nat} (good : status < 400) (answer : Workspace.Answer) :
    (Response.ofAnswer status answer).status < 400 := by
  cases answer with
  | nothing => exact (by decide : 204 < 400)
  | _ => exact good

theorem keepsCanvases_generate (studio : Studio) (user : String) (request : Generation.Request)
    (c : Circumstances) : studio.KeepsCanvases (generate studio user request c).2 := by
  intro name
  rw [generate]
  apply Studio.keepsCanvas_conclude
  split
  · exact Studio.keepsCanvas_wait_close user request c.response name
  · exact Studio.keepsCanvas_wait user request c.response name

theorem conditions_generate (studio : Studio) (user : String) (request : Generation.Request)
    (c : Circumstances) : (generate studio user request c).2.conditions = studio.conditions := by
  rw [generate, Studio.conditions_conclude]
  split <;> rfl

theorem conditions_serve (s : Server) (route : Route) (user : String) (c : Circumstances)
    (demand : Demand) :
    (s.serve route user c demand).2.studio.conditions = s.studio.conditions := by
  cases demand with
  | reply r => rfl
  | operate op => rfl
  | generate request => exact conditions_generate s.studio user request c

theorem serve_failed (saves : s.studio.conditions.saveFault = none)
    (failed : 400 ≤ (s.serve route user c demand).1.status) :
    s.studio.KeepsCanvases (s.serve route user c demand).2.studio := by
  cases demand with
  | reply r => exact fun name => Workspace.keepsCanvas_refl _ _ _
  | operate op =>
      cases ends : (s.studio.perform user op).1 with
      | ok answer =>
          have good := status_ofAnswer_lt (successStatus_lt route) answer
          simp only [serve, ends] at failed
          omega
      | error e => exact Studio.keepsCanvases_failed saves ends
  | generate request => exact keepsCanvases_generate s.studio user request c

end Serving

section Handling

variable (s : Server) (c : Circumstances)

theorem studio_visit (route : Route) (path user : String) :
    (s.visit route path user).2.studio = s.studio := by
  rw [visit]
  split
  · split
    · dsimp only
      split <;> rfl
    · rfl
  · rfl

theorem accept_cases (route : Route) (target : Target) (user : Option String)
    (body : Option Json) :
    (s.accept route target user c body).2.studio = s.studio ∨
      ∃ (t : Server) (name : String) (demand : Demand), t.studio = s.studio ∧
        s.accept route target user c body = t.serve route name c demand := by
  rw [accept]
  split
  · exact .inl rfl
  · dsimp only
    split
    · exact .inl rfl
    · rename_i name demand _
      have studio := s.studio_visit route target.path name
      split
      · rename_i visited
        rw [visited] at studio
        exact .inl studio
      · rename_i visited
        rw [visited] at studio
        exact .inr ⟨_, name, demand, studio, rfl⟩

theorem answer_cases (method : String) (target : Target) (request : Request) :
    (s.answer method target request c).2.studio = s.studio ∨
      ∃ (t : Server) (route : Route) (name : String) (demand : Demand), t.studio = s.studio ∧
        s.answer method target request c = t.serve route name c demand := by
  rw [answer]
  split
  · exact .inl rfl
  · exact .inl rfl
  · rename_i route _
    split
    · exact .inl rfl
    · exact (s.accept_cases c route target request.user _).imp_right
        fun ⟨t, name, demand, served⟩ => ⟨t, route, name, demand, served⟩

def reply (request : Request) : Response :=
  (s.answer request.method.toUpper (Route.follow redirections (Target.parse request.target))
    request c).1

theorem status_handle (request : Request) :
    (s.handle request c).1.status = (s.reply c request).sent.status := by
  have head : ∀ r : Response, r.head.status = r.status := fun _ => rfl
  rw [handle, reply]
  dsimp only
  split
  · rw [head]
  · rfl

/-- A request leaves the studio alone, or it is served and answered by how that ended. -/
theorem handle_cases (request : Request) :
    (s.handle request c).2.studio = s.studio ∨
      ∃ (t : Server) (route : Route) (name : String) (demand : Demand), t.studio = s.studio ∧
        s.reply c request = (t.serve route name c demand).1 ∧
          (s.handle request c).2 = (t.serve route name c demand).2 := by
  rw [handle, reply]
  dsimp only
  rcases s.answer_cases c request.method.toUpper
    (Route.follow redirections (Target.parse request.target)) request with
    alone | ⟨t, route, name, demand, studio, ends⟩
  · exact .inl alone
  · rw [ends]
    exact .inr ⟨t, route, name, demand, studio, rfl, rfl⟩

theorem conditions_handle (request : Request) :
    (s.handle request c).2.studio.conditions = s.studio.conditions := by
  rcases s.handle_cases c request with alone | ⟨t, route, name, demand, studio, -, ends⟩
  · rw [alone]
  · rw [ends, conditions_serve, studio]

end Handling

section Reaching

def start (storage : Workspace.Storage) (service : Generation.Service) (isLimited hasKey : Bool) :
    Server :=
  ⟨.start storage service, isLimited, hasKey, []⟩

/-- The servers that requests lead to from an empty store, while visits are forgotten. -/
inductive Reachable : Server → Prop
  | start (storage : Workspace.Storage) (service : Generation.Service) (isLimited hasKey : Bool) :
      Reachable (start storage service isLimited hasKey)
  | next {s : Server} (reached : Reachable s) (request : Request) (c : Circumstances) :
      Reachable (s.handle request c).2
  | forget {s : Server} (reached : Reachable s) (visits : List ((String × String) × Nat)) :
      Reachable { s with visits := visits }

variable {s : Server}

theorem Reachable.saves (reached : s.Reachable) : s.studio.conditions.saveFault = none := by
  induction reached with
  | start storage service isLimited hasKey => rfl
  | @next s reached request c ih => rw [conditions_handle, ih]
  | forget reached visits ih => exact ih

theorem Reachable.reply_failed (reached : s.Reachable) {request : Request} {c : Circumstances}
    (failed : 400 ≤ (s.reply c request).status) :
    s.studio.KeepsCanvases (s.handle request c).2.studio := by
  rcases s.handle_cases c request with alone | ⟨t, route, name, demand, studio, served, ends⟩
  · rw [alone]
    exact fun name => Workspace.keepsCanvas_refl _ _ _
  · have saves := reached.saves
    rw [← studio] at saves
    rw [served] at failed
    rw [ends, ← studio]
    exact serve_failed saves failed

/-- A request that is answered with a status from 400 on leaves what every workspace shows and
stores as it was, unless its answer is one of success that cannot be sent. -/
theorem failed_intact (reached : s.Reachable) {request : Request} {c : Circumstances}
    (failed : 400 ≤ (s.handle request c).1.status) :
    s.studio.KeepsCanvases (s.handle request c).2.studio ∨
      (s.reply c request).status < 400 ∧ (s.reply c request).isSendable = false := by
  by_cases refused : 400 ≤ (s.reply c request).status
  · exact .inl (reached.reply_failed refused)
  · refine .inr ⟨Nat.lt_of_not_le refused, ?_⟩
    rw [status_handle, Response.sent] at failed
    split at failed
    · exact absurd failed refused
    · next unsendable => exact Bool.not_eq_true _ ▸ unsendable

def busy : Server :=
  ((start .memory ⟨"", "m"⟩ true false).handle
    ⟨"POST", "/flow/nodes", some "w", "\x7b\"role\": \"user\"\x7d"⟩ ⟨.reply .none, false⟩).2

def wipe : Request := ⟨"DELETE", "/flow", some "w", ""⟩

theorem failed_intact_wipe :
    busy.Reachable ∧ 400 ≤ (busy.handle wipe ⟨.reply .none, false⟩).1.status ∧
      busy.studio.KeepsCanvases (busy.handle wipe ⟨.reply .none, false⟩).2.studio := by
  have reached : busy.Reachable := (Reachable.start _ _ _ _).next _ _
  have failed : 400 ≤ (busy.handle wipe ⟨.reply .none, false⟩).1.status := by decide +kernel
  have unsent : ¬ ((busy.reply ⟨.reply .none, false⟩ wipe).status < 400 ∧
      (busy.reply ⟨.reply .none, false⟩ wipe).isSendable = false) := by decide +kernel
  exact ⟨reached, failed, (failed_intact reached failed).resolve_right unsent⟩

/-- To give an item an identifier that is half of a character. -/
def halve : Request :=
  ⟨"PUT", "/flow/nodes/n1/items", some "w",
    "\x7b\"items\": [\x7b\"id\": \"\\ud800\", \"text\": \"x\"\x7d]\x7d"⟩

/-- The items are replaced, and the answer that shows them is an error of the server. -/
theorem failed_halve :
    let s := start .memory ⟨"", "m"⟩ true false
    let ended := s.handle halve ⟨.reply .none, false⟩
    s.Reachable ∧ ended.1.status = 500 ∧ ¬ s.studio.KeepsCanvases ended.2.studio ∧
      (ended.2.studio.session? "w").map (fun shown => shown.canvas.nodes.map Canvas.Node.content) =
        some ["1 x", "1 Summarize the latest ticket updates.\n2 Suggest next actions."] := by
  refine ⟨.start _ _ _ _, by decide +kernel, fun keeps => ?_, by decide +kernel⟩
  have stored := congrArg Option.isSome (keeps "w").stored
  exact absurd stored (by decide +kernel)

end Reaching

end PromptCanvas.Web.Server
