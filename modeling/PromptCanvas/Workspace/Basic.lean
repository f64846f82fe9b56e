import PromptCanvas.Workspace.Document
import PromptCanvas.Workspace.Session

/-! # Workspaces

`Workspace`: the stored document of one workspace and the sessions that have
opened it, one for each epoch of the service.  `Workspace.perform` opens a
session if there is none, runs an operation in it and saves what it changed;
`Workspace.begin` and `Workspace.finish` are the two ends of a generation. -/

set_option autoImplicit false

namespace PromptCanvas

structure Workspace where
  stored : Option Workspace.Document
  sessions : List (Nat × Workspace.Session)

namespace Workspace

/-- What a workspace finds when it is used: where documents are kept, how the
store fails, and how often the service was restarted. -/
structure Conditions where
  storage : Storage
  saveFault : Option StoreFault
  loadFault : Option StoreFault
  epoch : Nat
  deriving DecidableEq, Repr

structure Step (α : Type) where
  result : Except Failure α
  workspace : Workspace
  ids : IdSupply

def untouched : Workspace := ⟨none, []⟩

section Storing

def document (w : Workspace) : Json :=
  match w.stored with
  | some d => d.read
  | none => .null

def store (w : Workspace) (storage : Storage) (j : Json) : Workspace :=
  { w with stored := some (Document.write storage j) }

/-- What a load gives: the document, nothing from a store that is not available, or a fault. -/
def load (w : Workspace) (c : Conditions) : Except StoreFault Json :=
  match c.loadFault with
  | none => .ok w.document
  | some fault => .error fault

def save (w : Workspace) (c : Conditions) (j : Json) : Except StoreFault Workspace :=
  match c.saveFault with
  | none => .ok (w.store c.storage j)
  | some fault => .error fault

end Storing

section Sessions

def session? (w : Workspace) (epoch : Nat) : Option Session := w.sessions.lookup epoch

def putSession (w : Workspace) (epoch : Nat) (s : Session) : Workspace :=
  { w with sessions := (epoch, s) :: w.sessions.filter fun other => other.1 != epoch }

def opening (w : Workspace) (c : Conditions) : Except Failure Json :=
  match w.load c with
  | .ok j => .ok j
  | .error fault => if fault.isOverlookedOnLoad then .ok .null else .error (.store fault)

/-- The session of the present epoch, opened on what is stored if there is none. -/
def open? (w : Workspace) (c : Conditions) (ids : IdSupply) : Step Session :=
  match w.session? c.epoch with
  | some s => ⟨.ok s, w, ids⟩
  | none =>
      match w.opening c with
      | .error e => ⟨.error e, w, ids⟩
      | .ok j =>
          let (canvas, ids) := (Canvas.restore j).complete ids
          let s : Session := ⟨canvas, none, 0⟩
          ⟨.ok s, w.putSession c.epoch s, ids⟩

end Sessions

section Operations

/-- Saves a changed session.  The change stands whatever becomes of the save. -/
def commit (w : Workspace) (c : Conditions) (change : Change) (ids : IdSupply) : Step Answer :=
  let w := w.putSession c.epoch change.session
  if change.saves then
    match w.save c change.session.canvas.toJson with
    | .ok w => ⟨.ok change.answer, w, ids⟩
    | .error fault =>
        if fault.isOverlookedOnSave then ⟨.ok change.answer, w, ids⟩
        else ⟨.error (.store fault), w, ids⟩
  else ⟨.ok change.answer, w, ids⟩

def runTask (w : Workspace) (c : Conditions) (task : Task) (ids : IdSupply) : Step Answer :=
  match w.open? c ids with
  | ⟨.error e, w, ids⟩ => ⟨.error e, w, ids⟩
  | ⟨.ok s, w, ids⟩ =>
      match task.run s ids with
      | (.error e, ids) => ⟨.error e, w, ids⟩
      | (.ok change, ids) => w.commit c change ids

def perform (w : Workspace) (c : Conditions) (op : Operation) (ids : IdSupply) : Step Answer :=
  match op.task with
  | .error e => ⟨.error e, w, ids⟩
  | .ok task => w.runTask c task ids

end Operations

section Generation

/-- Starts a generation, whose result counts as long as its ticket is the latest. -/
def begin (w : Workspace) (c : Conditions) (ids : IdSupply) : Step Nat :=
  match w.open? c ids with
  | ⟨.error e, w, ids⟩ => ⟨.error e, w, ids⟩
  | ⟨.ok s, w, ids⟩ =>
      let s := s.supersede
      ⟨.ok s.generation, w.putSession c.epoch s, ids⟩

/-- Hands the result of a generation to the session of the epoch in which it was started. -/
def finish (w : Workspace) (epoch ticket : Nat) (result : Except Generation.Failure Graph) :
    Except Failure Graph × Workspace :=
  match w.session? epoch with
  | none => (.error .superseded, w)
  | some s =>
      let (answer, s) := s.settle ticket result
      (answer, w.putSession epoch s)

end Generation

end Workspace

end PromptCanvas
