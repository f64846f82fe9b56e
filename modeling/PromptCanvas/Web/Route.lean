import PromptCanvas.Web.Query

/-! # Routes

`Route.find`: what a method asks for at a path.  A path that no route has leads
to the one without the slashes at its end, if that has a route. -/

set_option autoImplicit false

namespace PromptCanvas.Web

inductive Route where
  | welcome
  | health
  | templates
  | canvas
  | reset
  | transcript
  | markdown
  | importText
  | validate
  | generate
  | closeGenerator
  | draw
  | layout
  | add
  | relabel (id : String)
  | relist (id : String)
  | remove (id : String)
  | select
  | connect
  | manual
  | schema
  deriving DecidableEq, Repr

namespace Route

section Finding

def reading (r : Route) : List (String × Route) := [("GET", r), ("HEAD", r)]

def atSegments : List String → List (String × Route)
  | ["", ""] => [("GET", .welcome)]
  | ["", "healthz"] => [("GET", .health)]
  | ["", "templates"] => [("GET", .templates)]
  | ["", "flow"] => [("GET", .canvas), ("DELETE", .reset)]
  | ["", "flow", "output"] => [("GET", .transcript)]
  | ["", "flow", "output", "markdown"] => [("GET", .markdown)]
  | ["", "flow", "import"] => [("POST", .importText)]
  | ["", "flow", "validate"] => [("POST", .validate)]
  | ["", "flow", "generate"] => [("POST", .generate), ("DELETE", .closeGenerator)]
  | ["", "flow", "generate", "draw"] => [("POST", .draw)]
  | ["", "flow", "layout"] => [("POST", .layout)]
  | ["", "flow", "nodes"] => [("POST", .add)]
  | ["", "flow", "nodes", id] =>
      if id.isEmpty then [] else [("PUT", .relabel id), ("DELETE", .remove id)]
  | ["", "flow", "nodes", id, "items"] => if id.isEmpty then [] else [("PUT", .relist id)]
  | ["", "flow", "selection"] => [("PUT", .select)]
  | ["", "flow", "edges"] => [("POST", .connect)]
  | ["", "docs"] => reading .manual
  | ["", "docs", "oauth2-redirect"] => reading .manual
  | ["", "redoc"] => reading .manual
  | ["", "openapi.json"] => reading .schema
  | _ => []

def withoutNewline (segments : List String) : List String :=
  match segments.reverse with
  | [] => []
  | last :: others =>
      (match last.toList.reverse with
        | '\n' :: cs => String.ofList cs.reverse :: others
        | _ => last :: others).reverse

/-- The routes at a target; a newline after a path that has a route is overlooked. -/
def atTarget (t : Target) : List (String × Route) :=
  match atSegments t.segments with
  | [] => atSegments (withoutNewline t.segments)
  | routes => routes

def redirection? (t : Target) : Option Target :=
  if (atTarget t).isEmpty && !(atTarget t.withoutSlashes).isEmpty then
    some (Target.parse t.withoutSlashes.spelling)
  else none

def follow : Nat → Target → Target
  | 0, t => t
  | n + 1, t =>
      match redirection? t with
      | some next => follow n next
      | none => t

inductive Finding where
  | route (r : Route)
  | otherMethod
  | nothing

def find (method : String) (t : Target) : Finding :=
  let routes := atTarget t
  if routes.isEmpty then .nothing
  else
    match routes.lookup method with
    | some r => .route r
    | none => .otherMethod

end Finding

section Rules

def needsUser : Route → Bool
  | .welcome => false
  | .health => false
  | .templates => false
  | .validate => false
  | .manual => false
  | .schema => false
  | _ => true

def limit? : Route → Option Nat
  | .reset => some 10
  | .importText => some 30
  | .generate => some 15
  | .add => some 60
  | .connect => some 120
  | _ => none

def readsBody : Route → Bool
  | .importText => true
  | .validate => true
  | .generate => true
  | .draw => true
  | .layout => true
  | .add => true
  | .relabel _ => true
  | .relist _ => true
  | .select => true
  | .connect => true
  | _ => false

end Rules

end Route

end PromptCanvas.Web
