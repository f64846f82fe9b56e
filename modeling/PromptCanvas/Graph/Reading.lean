import PromptCanvas.Graph.Basic
import PromptCanvas.Graph.Tier
import PromptCanvas.Text.Blank

/-! # Valid graphs

`Graph.read`: the graph that a value describes, or the first reason why it is
no valid flow.  Faults of shape come before faults of structure, nodes before
edges, and the search for cycles last. -/

set_option autoImplicit false

namespace PromptCanvas.Graph

inductive Reason where
  | notObject
  | notArrays
  | noNodes
  | nodeWithoutId
  | duplicateId (id : String)
  | badRole (id : String)
  | badLabel (id : String)
  | emptyContent (id : String)
  | edgeWithoutEnds
  | unknownEnds (source target : String)
  | selfLoop (id : String)
  | orphan (id : String)
  | cyclic
  deriving DecidableEq, Repr

def Reason.message : Reason → String
  | .notObject => "Invalid JSON: root must be an object."
  | .notArrays => "Invalid JSON: \x60nodes\x60 and \x60edges\x60 must be arrays."
  | .noNodes => "Invalid flow: at least one node is required."
  | .nodeWithoutId => "Invalid node: every node must have a string \x60id\x60."
  | .duplicateId id => s!"Invalid flow: duplicate node id '{id}'."
  | .badRole id => s!"Invalid node '{id}': role must be system, user, or assistant."
  | .badLabel id => s!"Invalid node '{id}': label must be a string."
  | .emptyContent id => s!"Invalid node '{id}': content cannot be empty."
  | .edgeWithoutEnds => "Invalid edge: each edge must include string \x60from\x60 and \x60to\x60."
  | .unknownEnds source target => s!"Invalid edge: '{source}' -> '{target}' references missing node ids."
  | .selfLoop id => s!"Invalid edge: self-loop found on '{id}'."
  | .orphan id => s!"Invalid flow: orphan node '{id}' has no edges."
  | .cyclic => "Invalid flow: graph must be directed and acyclic."

section Nodes

def nonEmpty? (j : Json) : Option String :=
  match j with
  | .string s => if s.isEmpty then none else some s
  | _ => none

def readNode (seen : List String) (j : Json) : Except Reason Node :=
  match nonEmpty? (j.field "id") with
  | none => .error .nodeWithoutId
  | some id =>
      if seen.contains id then .error (.duplicateId id)
      else
        match (j.field "role").string?.bind Role.exportedOfName? with
        | none => .error (.badRole id)
        | some role =>
            match (j.field "label").string? with
            | none => .error (.badLabel id)
            | some label =>
                match (j.field "content").string? with
                | none => .error (.emptyContent id)
                | some content =>
                    if Text.isBlankString content then .error (.emptyContent id)
                    else .ok ⟨id, role, label, content⟩

def readNodes (seen : List String) : List Json → Except Reason (List Node)
  | [] => .ok []
  | j :: rest =>
      match readNode seen j with
      | .error r => .error r
      | .ok node =>
          match readNodes (node.id :: seen) rest with
          | .error r => .error r
          | .ok nodes => .ok (node :: nodes)

end Nodes

section Edges

def readEdge (ids : List String) (j : Json) : Except Reason Edge :=
  match nonEmpty? (j.field "from"), nonEmpty? (j.field "to") with
  | some source, some target =>
      if !(ids.contains source && ids.contains target) then .error (.unknownEnds source target)
      else if source = target then .error (.selfLoop source)
      else .ok ⟨source, target⟩
  | _, _ => .error .edgeWithoutEnds

def readEdges (ids : List String) : List Json → Except Reason (List Edge)
  | [] => .ok []
  | j :: rest =>
      match readEdge ids j with
      | .error r => .error r
      | .ok edge =>
          match readEdges ids rest with
          | .error r => .error r
          | .ok edges => .ok (edge :: edges)

end Edges

section Structure

/-- The first node without an edge, where there is more than one node. -/
def orphan? (g : Graph) : Option String :=
  if 1 < g.nodes.length then
    g.ids.find? fun id => g.edges.all fun e => e.source != id && e.target != id
  else none

def isAcyclic (g : Graph) : Bool := (settled g.ids g.pairs).length == g.nodes.length

def checkStructure (g : Graph) : Except Reason Graph :=
  match g.orphan? with
  | some id => .error (.orphan id)
  | none => if g.isAcyclic then .ok g else .error .cyclic

end Structure

section Reading

def readArrays (nodes edges : List Json) : Except Reason Graph :=
  if nodes.isEmpty then .error .noNodes
  else
    match readNodes [] nodes with
    | .error r => .error r
    | .ok nodes =>
        match readEdges (nodes.map Node.id) edges with
        | .error r => .error r
        | .ok edges => checkStructure ⟨nodes, edges⟩

def read (j : Json) : Except Reason Graph :=
  if j.isObject then
    match j.field "nodes", j.field "edges" with
    | .array nodes, .array edges => readArrays nodes edges
    | _, _ => .error .notArrays
  else .error .notObject

def reason? (j : Json) : Option Reason :=
  match read j with
  | .error r => some r
  | .ok _ => none

end Reading

end PromptCanvas.Graph
