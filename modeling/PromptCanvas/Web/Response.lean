import PromptCanvas.Json.Record
import PromptCanvas.Json.Standard
import PromptCanvas.Workspace.Session

/-! # Responses

`Response`: a status and what comes with it, the places of an ill-formed
request, a JSON value, or a text of some type. -/

set_option autoImplicit false

namespace PromptCanvas.Web

open Workspace (Failure Answer)

inductive Content where
  | places (faults : List Place)
  | json (j : Json)
  | text (type : String) (s : String)

def Content.type : Content → String
  | .text type _ => type
  | _ => "application/json"

structure Response where
  status : Nat
  content : Content

namespace Response

section Forms

def serverError : Response := ⟨500, .text "text/plain; charset=utf-8" "Internal Server Error"⟩

def ofJson (status : Nat) (j : Json) : Response := ⟨status, .json j.standardized⟩

/-- The answer to an ill-formed request shows the values that do not fit, so one
that standard JSON cannot show is an error of the server. -/
def invalid (misfits : List Misfit) : Response :=
  if misfits.all fun m => m.given.isStandard && m.given.isEncodable then
    ⟨422, .places (misfits.map Misfit.place)⟩
  else serverError

def note (status : Nat) (name message : String) : Response :=
  .ofJson status (.object [(name, .string message)])

def empty : Response := ⟨204, .text "" ""⟩

def unreadable : Response := note 400 "detail" "There was an error parsing the body"

def head (r : Response) : Response := { r with content := .text r.content.type "" }

end Forms

section Failures

def ofFailure (f : Failure) : Response :=
  match f with
  | .unconfirmed _ => note 409 "message" f.message
  | .blankText => note 400 "message" f.message
  | .overlong _ => serverError
  | .invalidFlow _ => note 422 "message" f.message
  | .unknownNode _ => note 404 "message" f.message
  | .nothingGenerated => note 409 "message" f.message
  | .superseded => note 409 "message" f.message
  | .generation g => if g.escapes then serverError else note 502 "message" f.message
  | .unknownMode _ => serverError
  | .store _ => serverError

def ofAnswer (status : Nat) : Answer → Response
  | .nothing => empty
  | .text s => ⟨status, .text "text/markdown; charset=utf-8" s⟩
  | a => ofJson status a.toJson

end Failures

section Sending

/-- What keeps a response from being sent is found out when everything else is done. -/
def isSendable (r : Response) : Bool :=
  match r.content with
  | .places _ => true
  | .json j => j.isEncodable
  | .text _ s => Text.isEncodable s.toList

def sent (r : Response) : Response := if r.isSendable then r else serverError

end Sending

end Response

end PromptCanvas.Web
