import PromptCanvas.Digest.Sha256
import PromptCanvas.Json.Printer
import PromptCanvas.Json.Reader
import PromptCanvas.Workspace.Failure

/-! # Stored documents

`Document`: what a store holds for a workspace, a value in memory or the text of
a file.  A file that holds no JSON object reads as nothing. -/

set_option autoImplicit false

namespace PromptCanvas.Workspace

inductive Storage where
  | memory
  | files
  deriving DecidableEq, Repr

inductive Document where
  | value (j : Json)
  | text (s : String)

namespace Document

section Access

def write (storage : Storage) (j : Json) : Document :=
  match storage with
  | .memory => .value j
  | .files => .text (j.render .document)

def read : Document → Json
  | .value j => j
  | .text s =>
      match Json.load s.toList with
      | .ok j => if j.isObject then j else .null
      | .error _ => .null

end Access

/-- The name of the file of a workspace, so that any name of a workspace makes a file name. -/
def fileName (workspace : String) : String := Digest.sha256Hex workspace ++ ".json"

end Document

end PromptCanvas.Workspace
