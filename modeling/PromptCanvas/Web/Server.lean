import PromptCanvas.Json.Encoding
import PromptCanvas.Web.Body
import PromptCanvas.Web.Response
import PromptCanvas.Web.Route
import PromptCanvas.Workspace.Studio

/-! # The server

`Server.handle`: the answer to a request, and the server after it.  A request is
checked in this order: its route, the text of its body, its user, the rest of
its shape, and how often its user came. -/

set_option autoImplicit false

namespace PromptCanvas.Web

open Workspace (Operation Failure Answer)

structure Request where
  method : String
  target : String
  user : Option String
  body : String
  deriving DecidableEq, Repr

/-- How the model behaves during a request: its response, and whether the user
stops the generator meanwhile. -/
structure Circumstances where
  response : Generation.Response
  interrupted : Bool

structure Server where
  studio : Studio
  isLimited : Bool
  hasKey : Bool
  visits : List ((String × String) × Nat)

inductive Demand where
  | reply (r : Response)
  | operate (op : Operation)
  | generate (request : Generation.Request)

namespace Server

section Reading

/-- The value of a body, none for an empty one, or the answer to one that has no value. -/
def readBody (body : List UInt8) : Except Response (Option Json) :=
  if body.isEmpty then .ok none
  else
    match Json.decode? body with
    | none => .error .unreadable
    | some cs =>
        match Json.read true cs with
        | .ok j => .ok (some j)
        | .error fault =>
            if fault.overlong?.isSome then .error .unreadable
            else .error (.invalid [⟨["body", toString fault.position], .null⟩])

def fromBody {α : Type} (body : Option Json) (read : Json → Checked α) : Checked α :=
  .under "body"
    (match body with
    | none => .misfit .null
    | some .null => .misfit .null
    | some j => read j)

def userOf (user : Option String) : Checked String :=
  match user with
  | some name => .ok name
  | none => .error [⟨["header", "x-user-id"], .null⟩]

def confirmedIn (t : Target) : Checked Bool :=
  match t.parameter? "confirm" with
  | some word => .under "query" (.under "confirm" (Checked.truth (.string word)))
  | none => .ok false

def templates : Json :=
  .array (Role.all.map fun r => .object
    [("role", .string r.name), ("label", .string r.label), ("hint", .string r.hint)])

def validation (candidate : Json) : Json :=
  let error := Graph.reason? candidate
  .object
    [("valid", .bool error.isNone), ("error", .ofOption (fun r => .string r.message) error)]

def health (hasKey : Bool) : Json :=
  .object [("status", .string "ok"), ("generation_configured", .bool hasKey)]

def demand (hasKey : Bool) (target : Target) (body : Option Json) : Route → Checked Demand
  | .welcome => .ok (.reply (.note 200 "message" "Welcome to the Prompt Flow Designer API"))
  | .health => .ok (.reply (.ofJson 200 (health hasKey)))
  | .templates => .ok (.reply (.ofJson 200 templates))
  | .validate => .ok (.reply (.ofJson 200 (validation (body.getD .null))))
  | .canvas => .ok (.operate .view)
  | .reset => (confirmedIn target).map fun confirmed => .operate (.reset confirmed)
  | .transcript => .ok (.operate .transcript)
  | .markdown => .ok (.operate .markdown)
  | .importText => (fromBody body Body.importText).map .operate
  | .generate => (fromBody body Generation.Request.read).map .generate
  | .closeGenerator => .ok (.operate .close)
  | .draw => (fromBody body Body.draw).map .operate
  | .layout => (fromBody body Body.layout).map .operate
  | .add => (fromBody body Body.add).map .operate
  | .relabel id => (fromBody body (Body.relabel id)).map .operate
  | .relist id => (fromBody body (Body.relist id)).map .operate
  | .remove id => .ok (.operate (.remove id))
  | .select => (fromBody body Body.select).map .operate
  | .connect => (fromBody body Body.connect).map .operate
  | .manual => .ok (.reply ⟨200, .text "text/html; charset=utf-8" ""⟩)
  | .schema => .ok (.reply ⟨200, .text "application/json" ""⟩)

end Reading

section Limits

def countVisit (key : String × String) :
    List ((String × String) × Nat) → List ((String × String) × Nat)
  | [] => [(key, 1)]
  | (other, n) :: rest =>
      if other = key then (other, n + 1) :: rest else (other, n) :: countVisit key rest

def visitsOf (s : Server) (key : String × String) : Nat := (s.visits.lookup key).getD 0

/-- Counts a visit of a user to a path; the answer is that of one who came too often. -/
def visit (s : Server) (route : Route) (path user : String) : Option Response × Server :=
  match route.limit? with
  | some limit =>
      if s.isLimited then
        let s := { s with visits := countVisit (path, user) s.visits }
        if limit < s.visitsOf (path, user) then
          (some (.note 429 "error" s!"Rate limit exceeded: {limit} per 1 minute"), s)
        else (none, s)
      else (none, s)
  | none => (none, s)

end Limits

section Serving

def successStatus : Route → Nat
  | .generate => 201
  | .add => 201
  | .connect => 201
  | _ => 200

/-- A generation; stopping the generator while the model is at work makes its result old. -/
def generate (studio : Studio) (user : String) (request : Generation.Request)
    (c : Circumstances) : Except Failure Graph × Studio :=
  let (waiting, studio) := studio.wait user request c.response
  let studio := if c.interrupted then (studio.perform user .close).2 else studio
  studio.conclude waiting

def serve (s : Server) (route : Route) (user : String) (c : Circumstances) :
    Demand → Response × Server
  | .reply r => (r, s)
  | .operate op =>
      let (result, studio) := s.studio.perform user op
      let response :=
        match result with
        | .ok answer => Response.ofAnswer (successStatus route) answer
        | .error f => .ofFailure f
      (response, { s with studio := studio })
  | .generate request =>
      let (result, studio) := generate s.studio user request c
      let response :=
        match result with
        | .ok g => Response.ofJson (successStatus route) g.toJson
        | .error f => .ofFailure f
      (response, { s with studio := studio })

def accept (s : Server) (route : Route) (target : Target) (user : Option String)
    (c : Circumstances) (body : Option Json) : Response × Server :=
  if route.needsUser && (user.map Text.isBlankString) == some true then
    (.note 400 "detail" "X-User-ID header is required.", s)
  else
    let name := if route.needsUser then userOf user else .ok ""
    match Checked.both name (demand s.hasKey target body route) with
    | .error misfits => (.invalid misfits, s)
    | .ok (name, demand) =>
        match s.visit route target.path name with
        | (some response, s) => (response, s)
        | (none, s) => s.serve route name c demand

def answer (s : Server) (method : String) (target : Target) (request : Request)
    (c : Circumstances) : Response × Server :=
  match Route.find method target with
  | .nothing => (.note 404 "detail" "Not Found", s)
  | .otherMethod => (.note 405 "detail" "Method Not Allowed", s)
  | .route route =>
      match if route.readsBody then readBody (Text.encodeUtf8 request.body) else .ok none with
      | .error response => (response, s)
      | .ok body => s.accept route target request.user c body

def redirections : Nat := 20

/-- The case of a method does not matter, and a head comes without content. -/
def handle (s : Server) (request : Request) (c : Circumstances) : Response × Server :=
  let method := request.method.toUpper
  let target := Route.follow redirections (Target.parse request.target)
  let (response, s) := s.answer method target request c
  (if method = "HEAD" then response.sent.head else response.sent, s)

end Serving

section Origins

def origins : List String :=
  ["http://localhost:5173", "http://localhost:8000", "http://localhost:8080"]

/-- The origin that a response is shared with; an error of the server is shared with none. -/
def sharedWith (origin : String) (r : Response) : Option String :=
  if origins.contains origin && r.status != 500 then some origin else none

end Origins

end Server

end PromptCanvas.Web
