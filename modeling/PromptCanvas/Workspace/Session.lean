import PromptCanvas.Canvas.Transcript
import PromptCanvas.Import.Dialects
import PromptCanvas.Workspace.Failure

/-! # Sessions

`Session`: the canvas of an open workspace, the graph that was generated for it,
and how often its generator was started or stopped.  `Operation` is what can be
asked of a session; `Operation.task` refuses what needs no session to be
refused, and `Task.run` is the change that the rest makes. -/

set_option autoImplicit false

namespace PromptCanvas.Workspace

structure Session where
  canvas : Canvas
  pending : Option Graph
  generation : Nat
  deriving DecidableEq, Repr

inductive Operation where
  | view
  | transcript
  | markdown
  | importText (text : String) (confirmed : Bool)
  | close
  | draw (confirmed : Bool)
  | reset (confirmed : Bool)
  | layout (mode : Json)
  | add (role : Role) (position : Position)
  | relabel (id : String) (label : Option String)
  | relist (id : String) (items : List Json)
  | remove (id : String)
  | connect (source target : String)
  | select (id : Option String)

inductive Answer where
  | nothing
  | canvas (c : Canvas)
  | transcript (t : Transcript)
  | text (s : String)
  | graph (g : Graph)
  | node (n : Canvas.Node)
  | edge (e : Canvas.Edge)

def Answer.toJson : Answer → Json
  | .nothing => .null
  | .canvas c => c.toJson
  | .transcript t => t.toJson
  | .text s => .string s
  | .graph g => g.toJson
  | .node n => n.toJson
  | .edge e => e.toJson

structure Change where
  session : Session
  answer : Answer
  saves : Bool

/-- What is left of an operation once it needs a session. -/
inductive Task where
  | view
  | transcript
  | markdown
  | replace (g : Graph)
  | close
  | draw (confirmed : Bool)
  | clear
  | layout (mode : Json)
  | add (role : Role) (position : Position)
  | relabel (id : String) (label : Option String)
  | relist (id : String) (items : List Json)
  | remove (id : String)
  | connect (source target : String)
  | select (id : Option String)

section Tasks

def graphOfText (text : String) : Except Failure Graph :=
  match Import.read text with
  | .error n => .error (.overlong n)
  | .ok none => .error .blankText
  | .ok (some j) =>
      match Graph.read j with
      | .ok g => .ok g
      | .error r => .error (.invalidFlow r)

def Operation.task : Operation → Except Failure Task
  | .view => .ok .view
  | .transcript => .ok .transcript
  | .markdown => .ok .markdown
  | .importText text confirmed =>
      if confirmed then (graphOfText text).map .replace else .error (.unconfirmed .importing)
  | .close => .ok .close
  | .draw confirmed => .ok (.draw confirmed)
  | .reset confirmed => if confirmed then .ok .clear else .error (.unconfirmed .deleting)
  | .layout mode => .ok (.layout mode)
  | .add role position => .ok (.add role position)
  | .relabel id label => .ok (.relabel id label)
  | .relist id items => .ok (.relist id items)
  | .remove id => .ok (.remove id)
  | .connect source target => .ok (.connect source target)
  | .select id => .ok (.select id)

end Tasks

namespace Session

section Generation

/-- A start or a stop of the generator: whatever it held or waited for is out of date. -/
def supersede (s : Session) : Session :=
  { s with pending := none, generation := s.generation + 1 }

/-- The result of the start that made `ticket` the current generation. -/
def settle (s : Session) (ticket : Nat) (result : Except Generation.Failure Graph) :
    Except Failure Graph × Session :=
  match result with
  | .error e => (.error (.generation e), s)
  | .ok g =>
      if ticket = s.generation then (.ok g, { s with pending := some g })
      else (.error .superseded, s)

end Generation

section Changes

def look (s : Session) (answer : Answer) : Change := ⟨s, answer, false⟩

def withCanvas (s : Session) (c : Canvas) : Session := { s with canvas := c }

def showing (s : Session) (c : Canvas) : Change := ⟨s.withCanvas c, .canvas c, true⟩

def transcript (s : Session) : Transcript := .of s.canvas.nodes s.canvas.edges

def node (s : Session) (id : String) : Except Failure Canvas.Node :=
  match s.canvas.find? id with
  | some n => .ok n
  | none => .error (.unknownNode id)

def updateFirst (id : String) (f : Canvas.Node → Canvas.Node) :
    List Canvas.Node → List Canvas.Node
  | [] => []
  | n :: rest => if n.id = id then f n :: rest else n :: updateFirst id f rest

def update (s : Session) (id : String) (f : Canvas.Node → Canvas.Node) : Except Failure Change :=
  match s.node id with
  | .error e => .error e
  | .ok n =>
      let nodes := updateFirst id f s.canvas.nodes
      .ok ⟨s.withCanvas { s.canvas with nodes := nodes }, .node (f n), true⟩

def remove (s : Session) (id : String) : Except Failure Change :=
  match s.node id with
  | .error e => .error e
  | .ok _ =>
      let nodes := s.canvas.nodes.filter fun n => n.id != id
      let edges := s.canvas.edges.filter fun e => e.source != id && e.target != id
      .ok ⟨s.withCanvas ⟨nodes, edges, none⟩, .nothing, true⟩

def connect (s : Session) (source target : String) : Except Failure Change :=
  match s.node source, s.node target with
  | .error e, _ => .error e
  | .ok _, .error e => .error e
  | .ok _, .ok _ =>
      if source = target then .error (.invalidFlow (.selfLoop source))
      else
        match s.canvas.edges.find? fun e => e.source == source && e.target == target with
        | some e => .ok (s.look (.edge e))
        | none =>
            let e : Canvas.Edge := ⟨s!"e-{source}-{target}", source, target⟩
            .ok ⟨s.withCanvas { s.canvas with edges := s.canvas.edges ++ [e] }, .edge e, true⟩

def select (s : Session) (id : Option String) : Except Failure Change :=
  let selected := s.showing { s.canvas with selected := id }
  match id with
  | none => .ok selected
  | some id => (s.node id).map fun _ => selected

def arrange (s : Session) (mode : Json) : Except Failure Change :=
  match Canvas.arrangeBy mode s.canvas.nodes s.canvas.edges with
  | .error e => .error (.unknownMode e)
  | .ok nodes => .ok (s.showing { s.canvas with nodes := nodes })

def drawable (s : Session) (confirmed : Bool) : Except Failure Graph :=
  match s.pending with
  | none => .error .nothingGenerated
  | some g =>
      if confirmed then
        match Graph.read g.toJson with
        | .ok g => .ok g
        | .error r => .error (.generation (.rejected r))
      else .error (.unconfirmed .drawing)

end Changes

section Additions

def replace (s : Session) (g : Graph) (ids : IdSupply) : Change × IdSupply :=
  let (c, ids) := g.layOut.complete ids
  (s.showing c, ids)

def draw (s : Session) (confirmed : Bool) (ids : IdSupply) : Except Failure Change × IdSupply :=
  match s.drawable confirmed with
  | .error e => (.error e, ids)
  | .ok g =>
      let (change, ids) := s.supersede.replace g ids
      (.ok change, ids)

/-- A new node with a blank list, which becomes the selected one. -/
def add (s : Session) (role : Role) (position : Position) (ids : IdSupply) : Change × IdSupply :=
  let (id, ids) := ids.drawNode
  let (node, ids) :=
    (Canvas.NodeDraft.mk id role role.label [Entry.blank.draft] position).complete ids
  let c := { s.canvas with nodes := s.canvas.nodes ++ [node], selected := some id }
  (⟨s.withCanvas c, .node node, true⟩, ids)

def relist (s : Session) (id : String) (items : List Json) (ids : IdSupply) :
    Except Failure Change × IdSupply :=
  let (items, ids) := Draft.completeAll (Outline.drafts items "") ids
  (s.update id fun n => { n with items := items }, ids)

end Additions

end Session

section Running

def Task.run (s : Session) (ids : IdSupply) : Task → Except Failure Change × IdSupply
  | .view => (.ok (s.look (.canvas s.canvas)), ids)
  | .transcript => (.ok (s.look (.transcript s.transcript)), ids)
  | .markdown => (.ok (s.look (.text s.transcript.markdown)), ids)
  | .replace g =>
      let (change, ids) := s.replace g ids
      (.ok change, ids)
  | .close => (.ok (s.supersede.look .nothing), ids)
  | .draw confirmed => s.draw confirmed ids
  | .clear => (.ok (s.showing .empty), ids)
  | .layout mode => (s.arrange mode, ids)
  | .add role position =>
      let (change, ids) := s.add role position ids
      (.ok change, ids)
  | .relabel id label => (s.update id fun n => { n with label := label.getD n.label }, ids)
  | .relist id items => s.relist id items ids
  | .remove id => (s.remove id, ids)
  | .connect source target => (s.connect source target, ids)
  | .select id => (s.select id, ids)

end Running

end PromptCanvas.Workspace
