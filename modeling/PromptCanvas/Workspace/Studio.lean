import PromptCanvas.Workspace.Basic

/-! # The studio

`Studio`: all workspaces of a service, the generations that it waits for, and
the calls that it made.  Every request is about one workspace and goes to that
workspace alone. -/

set_option autoImplicit false

namespace PromptCanvas

open Workspace (Conditions Failure Operation Answer StoreFault Storage)

structure Studio.Waiting where
  workspace : String
  epoch : Nat
  ticket : Except Failure Nat
  request : Generation.Request
  response : Generation.Response

structure Studio where
  conditions : Conditions
  service : Generation.Service
  workspaces : List (String × Workspace)
  waiting : List (String × Studio.Waiting)
  keys : List String
  calls : List Generation.Call
  ids : IdSupply

namespace Studio

section State

def start (storage : Storage) (service : Generation.Service) : Studio :=
  ⟨⟨storage, none, none, 0⟩, service, [], [], [], [], .start⟩

def workspace (s : Studio) (name : String) : Workspace :=
  (s.workspaces.lookup name).getD .untouched

def setWorkspace (name : String) (w : Workspace) :
    List (String × Workspace) → List (String × Workspace)
  | [] => [(name, w)]
  | (other, v) :: rest =>
      if other = name then (other, w) :: rest else (other, v) :: setWorkspace name w rest

def putWorkspace (s : Studio) (name : String) (w : Workspace) : Studio :=
  { s with workspaces := setWorkspace name w s.workspaces }

def session? (s : Studio) (name : String) : Option Workspace.Session :=
  (s.workspace name).session? s.conditions.epoch

def setFaults (s : Studio) (save load : Option StoreFault) : Studio :=
  { s with conditions := { s.conditions with saveFault := save, loadFault := load } }

/-- A new service over the same store: no workspace is open in it. -/
def restart (s : Studio) : Studio :=
  { s with conditions := { s.conditions with epoch := s.conditions.epoch + 1 } }

end State

section Operations

def leave {α : Type} (s : Studio) (name : String) (step : Workspace.Step α) : Studio :=
  { s.putWorkspace name step.workspace with ids := step.ids }

def perform (s : Studio) (name : String) (op : Operation) : Except Failure Answer × Studio :=
  let step := (s.workspace name).perform s.conditions op s.ids
  (step.result, s.leave name step)

end Operations

section Generation

def begin (s : Studio) (name : String) : Except Failure Nat × Studio :=
  let step := (s.workspace name).begin s.conditions s.ids
  (step.result, s.leave name step)

def record (s : Studio) (outcome : Generation.Outcome) : Studio :=
  { s with keys := s.keys ++ outcome.keys, calls := s.calls ++ outcome.calls }

/-- Calls the model for a generation that was begun, and hands its result over. -/
def conclude (s : Studio) (w : Waiting) : Except Failure Graph × Studio :=
  match w.ticket with
  | .error e => (.error e, s)
  | .ok ticket =>
      let outcome := Generation.run s.service w.request none w.response
      let (answer, workspace) := (s.workspace w.workspace).finish w.epoch ticket outcome.result
      (answer, (s.record outcome).putWorkspace w.workspace workspace)

def wait (s : Studio) (name : String) (request : Generation.Request)
    (response : Generation.Response) : Waiting × Studio :=
  let (ticket, next) := s.begin name
  (⟨name, s.conditions.epoch, ticket, request, response⟩, next)

def generate (s : Studio) (name : String) (request : Generation.Request)
    (response : Generation.Response) : Except Failure Graph × Studio :=
  let (waiting, s) := s.wait name request response
  s.conclude waiting

def hold (s : Studio) (tag name : String) (request : Generation.Request)
    (response : Generation.Response) : Studio :=
  let (waiting, s) := s.wait name request response
  { s with waiting := (tag, waiting) :: s.waiting.filter fun other => other.1 != tag }

def release (s : Studio) (tag : String) : Option (Except Failure Graph × Studio) :=
  (s.waiting.lookup tag).map fun waiting =>
    { s with waiting := s.waiting.filter fun other => other.1 != tag }.conclude waiting

end Generation

section Documents

def put (s : Studio) (name : String) (j : Json) : Except StoreFault Studio :=
  ((s.workspace name).save s.conditions j).map fun w => s.putWorkspace name w

def putText (s : Studio) (name text : String) : Studio :=
  s.putWorkspace name { s.workspace name with stored := some (.text text) }

def load (s : Studio) (name : String) : Except StoreFault Json :=
  (s.workspace name).load s.conditions

end Documents

end Studio

end PromptCanvas
