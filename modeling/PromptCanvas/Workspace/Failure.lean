import PromptCanvas.Canvas.Layout
import PromptCanvas.Generation.Request

/-! # Failures of an operation

`Workspace.Failure`: why an operation on a workspace did not happen, or in the
case of a store why it happened in memory only. -/

set_option autoImplicit false

namespace PromptCanvas.Workspace

inductive StoreFault where
  | unavailable
  | unwritableType
  | unwritableValue
  | broken
  deriving DecidableEq, Repr

namespace StoreFault

/-- Every fault of a save is overlooked but that of a broken store. -/
def isOverlookedOnSave : StoreFault → Bool
  | .broken => false
  | _ => true

def isOverlookedOnLoad : StoreFault → Bool
  | .unavailable => true
  | _ => false

end StoreFault

inductive Replacement where
  | importing
  | drawing
  | deleting
  deriving DecidableEq, Repr

def Replacement.warning : Replacement → String
  | .importing =>
      "Importing will replace the current canvas nodes and edges. Confirm to continue."
  | .drawing => "Drawing will replace the current canvas nodes and edges. Confirm to continue."
  | .deleting => "Deleting all nodes and edges cannot be undone. Confirm to continue."

inductive Failure where
  | unconfirmed (replacement : Replacement)
  | blankText
  | overlong (n : Json.Overlong)
  | invalidFlow (reason : Graph.Reason)
  | unknownNode (id : String)
  | nothingGenerated
  | generation (failure : Generation.Failure)
  | superseded
  | unknownMode (mode : LayoutMode.Unknown)
  | store (fault : StoreFault)

def Failure.message : Failure → String
  | .unconfirmed replacement => replacement.warning
  | .blankText => "Prompt text is empty."
  | .overlong n => n.message
  | .invalidFlow reason => reason.message
  | .unknownNode id => s!"Node '{id}' not found."
  | .nothingGenerated => "No generated flow to draw."
  | .generation failure => failure.message
  | .superseded => "Generation result was superseded and has been discarded."
  | .unknownMode mode => mode.message
  | .store _ => "store failure"

end PromptCanvas.Workspace
