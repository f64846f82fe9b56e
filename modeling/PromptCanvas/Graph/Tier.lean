/-! # Tiers of a graph

`Sweep`: a walk over identifiers and edges that takes up an identifier when all
edges into it have been followed.  `settled` are the identifiers that it takes
up, all of them exactly if there is no cycle; `tiers` gives every identifier its
tier, for one that is taken up the length of the longest path to it. -/

set_option autoImplicit false

namespace PromptCanvas

/-- `followed` holds the target of every edge followed so far, and `tiers` the
tiers given so far, of each identifier the newest first. -/
structure Sweep where
  queue : List String
  followed : List String
  tiers : List (String × Nat)
  settled : List String
  deepest : Nat
  deriving DecidableEq, Repr

namespace Sweep

section Edges

def known (ids : List String) (edges : List (String × String)) : List (String × String) :=
  edges.filter fun e => ids.contains e.1 && ids.contains e.2

def indegree (edges : List (String × String)) (id : String) : Nat :=
  edges.countP fun e => e.2 == id

def targets (edges : List (String × String)) (id : String) : List String :=
  (edges.filter fun e => e.1 == id).map Prod.snd

end Edges

section Walking

/-- The identifiers without an edge into them wait in the given order. -/
def start (ids : List String) (edges : List (String × String)) : Sweep :=
  let sources := ids.filter fun id => indegree edges id == 0
  { queue := sources, followed := [], tiers := (sources.map fun id => (id, 0)).reverse,
    settled := [], deepest := 0 }

def tierOf (s : Sweep) (id : String) : Nat := (s.tiers.lookup id).getD 0

/-- Follows an edge from the given tier; the last edge into a target puts it in the queue. -/
def follow (edges : List (String × String)) (tier : Nat) (s : Sweep) (target : String) : Sweep :=
  let followed := target :: s.followed
  { s with
    followed := followed
    tiers := (target, max (s.tierOf target) (tier + 1)) :: s.tiers
    queue := if followed.count target = indegree edges target then s.queue ++ [target] else s.queue }

/-- Takes up the first identifier of the queue and follows the edges out of it. -/
def take (edges : List (String × String)) (s : Sweep) : Sweep :=
  match s.queue with
  | [] => s
  | id :: queue =>
      let tier := s.tierOf id
      (targets edges id).foldl (follow edges tier)
        { s with queue := queue, settled := s.settled ++ [id], deepest := max s.deepest tier }

def run (edges : List (String × String)) : Nat → Sweep → Sweep
  | 0, s => s
  | n + 1, s => run edges n (s.take edges)

/-- The walk to its end: no identifier is taken up more often than it is listed. -/
def finish (ids : List String) (edges : List (String × String)) : Sweep :=
  run (known ids edges) ids.length (start ids (known ids edges))

end Walking

end Sweep

section Tiers

def settled (ids : List String) (edges : List (String × String)) : List String :=
  (Sweep.finish ids edges).settled

def appendTiers (ids : List String) (tier : Nat) (given : List (String × Nat)) : List (String × Nat) :=
  match ids with
  | [] => given
  | id :: rest => appendTiers rest (tier + 1) ((id, tier) :: given)

/-- The tiers of all identifiers, of each the newest first; those that the walk
does not reach come one after the other below the deepest tier. -/
def tiers (ids : List String) (edges : List (String × String)) : List (String × Nat) :=
  let s := Sweep.finish ids edges
  appendTiers (ids.filter fun id => (s.tiers.lookup id).isNone) (s.deepest + 1) s.tiers

def tierIn (given : List (String × Nat)) (id : String) : Nat := (given.lookup id).getD 0

end Tiers

end PromptCanvas
