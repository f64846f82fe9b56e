import PromptCanvas.Proofs.Canvas.Arranging
import PromptCanvas.Proofs.Canvas.Storage
import PromptCanvas.Proofs.Graph.Repeated

/-! # Edges in a layout

`LayoutMode.Forward`: where an edge leads from one position to another.  Without a cycle every
edge of a layout leads forward, whichever nodes of its identifiers are taken, as long as the
identifiers at which the graph starts are listed once (`arrangeBy_forward`).  One that is listed
twice is walked from twice, and what it leads to can be left too early
(`arrangeBy_backward`). -/

set_option autoImplicit false

namespace PromptCanvas

/-- From top to bottom, from left to right, or on in reading order. -/
def LayoutMode.Forward (mode : LayoutMode) (p q : Position) : Prop :=
  match mode with
  | .vertical => p.y.Less q.y
  | .horizontal => p.x.Less q.x
  | .grid => p.Precedes q

namespace Layout

theorem less_ofNat {m n : Nat} (less : m < n) (small : n < 2 ^ 53) :
    (Binary64.ofNat m).Less (.ofNat n) :=
  ⟨Binary64.isNan_ofNat (less.trans small), Binary64.isNan_ofNat small,
    Binary64.key_ofNat_lt less small⟩

theorem less_cell_x {column column' : Nat} (less : column < column') (inColumns : column' ≤ limit)
    (row row' : Nat) : (cell column row).x.Less (cell column' row').x := by
  rw [limit] at inColumns
  rw [cell_x, cell_x]
  exact less_ofNat (by omega) (by omega)

theorem less_cell_y {row row' : Nat} (less : row < row') (inRows : row' ≤ limit)
    (column column' : Nat) : (cell column row).y.Less (cell column' row').y := by
  rw [limit] at inRows
  rw [cell_y, cell_y]
  exact less_ofNat (by omega) (by omega)

theorem forward_placed {given : List (String × Nat)} {ids : List String}
    (few : ids.length ≤ limit) (shallow : ∀ id ∈ ids, tierIn given id ≤ limit) (mode : LayoutMode)
    {a b : String} (first : a ∈ ids) (second : b ∈ ids) (less : tierIn given a < tierIn given b) :
    mode.Forward (placed mode given ids a) (placed mode given ids b) := by
  cases mode with
  | vertical => exact less_cell_y less (shallow b second) _ _
  | horizontal => exact less_cell_x less (shallow b second) _ _
  | grid =>
      have upright : LayoutMode.grid ≠ .horizontal := by decide
      have ranks := rank_placed_lt few upright first second (shallow b second) less
      exact .of_rank_lt (isNumber_placed few shallow .grid first)
        (isNumber_placed few shallow .grid second) ranks

end Layout

namespace Canvas

open Layout

section Edges

variable {nodes : List Node} {edges : List Edge}

theorem known_readingIds (nodes : List Node) (edges : List (String × String)) :
    Sweep.known (readingIds nodes) edges = Sweep.known (nodes.map Node.id) edges :=
  Sweep.known_congr (fun _ => (readingIds_perm nodes).mem_iff) edges

/-- Without a cycle every edge of a layout leads forward, if the identifiers are listed once that
have edges out of them and none into them. -/
theorem arrangeBy_forward (numbers : ∀ n ∈ nodes, n.position.IsNumber)
    (few : nodes.length < 2 ^ 40)
    (acyclic : Acyclic (Sweep.known (nodes.map Node.id) (edges.map Edge.pair)))
    (once : StartsOnce (nodes.map Node.id) (Sweep.known (nodes.map Node.id) (edges.map Edge.pair)))
    (mode : LayoutMode) :
    ∃ laid, arrangeBy (.string mode.name) nodes edges = .ok laid ∧
      ∀ e ∈ edges, ∀ a ∈ laid, ∀ b ∈ laid, a.id = e.source → b.id = e.target →
        mode.Forward a.position b.position := by
  refine ⟨arrange mode nodes edges, arrangeBy_name .., ?_⟩
  intro e member a first b second source target
  have listedA := mem_readingIds_of_arrange mode first
  have listedB := mem_readingIds_of_arrange mode second
  rw [← known_readingIds] at acyclic once
  have onceRead : StartsOnce (readingIds nodes)
      (Sweep.known (readingIds nodes) (edges.map Edge.pair)) := fun f known none => by
    rw [(readingIds_perm nodes).count_eq]
    exact once f known none
  have fewIds : (readingIds nodes).length ≤ limit := (length_readingIds nodes).trans_le few.le
  have shallow : ∀ id ∈ readingIds nodes, tierIn (readingTiers nodes edges) id ≤ limit :=
    fun id listed => (tierIn_tiers_lt_length acyclic onceRead listed).le.trans fewIds
  have edge : (a.id, b.id) ∈ Sweep.known (readingIds nodes) (edges.map Edge.pair) := by
    refine Sweep.mem_known.mpr ⟨List.mem_map.mpr ⟨e, member, ?_⟩, listedA, listedB⟩
    rw [source, target, Edge.pair]
  rw [position_arrange numbers mode first, position_arrange numbers mode second]
  exact forward_placed fewIds shallow mode listedA listedB
    (tierIn_tiers_edge acyclic onceRead edge)

def paired : List Node :=
  [⟨"b", .user, "B", [], .origin⟩, ⟨"x", .user, "X", [], .origin⟩, ⟨"a", .user, "A", [], .origin⟩,
    ⟨"b", .user, "B", [], .origin⟩, ⟨"x", .user, "X", [], .origin⟩]

def pairedEdges : List Edge := [⟨"1", "a", "b"⟩, ⟨"2", "nowhere", "x"⟩]

theorem arrangeBy_forward_paired :
    ∃ laid, arrangeBy (.string "grid") paired pairedEdges = .ok laid ∧
      ∀ e ∈ pairedEdges, ∀ a ∈ laid, ∀ b ∈ laid, a.id = e.source → b.id = e.target →
        LayoutMode.grid.Forward a.position b.position := by
  have together : ∀ n ∈ paired, n.position = .origin := by decide +kernel
  have acyclic : Acyclic (Sweep.known (paired.map Node.id) (pairedEdges.map Edge.pair)) :=
    (acyclic_known_iff _ _).mp (by decide)
  exact arrangeBy_forward (isNumber_of_origin together) (by decide) acyclic (by decide) .grid

def rushed : List Node :=
  [⟨"s", .user, "S", [], .origin⟩, ⟨"s", .user, "S", [], .origin⟩, ⟨"p", .user, "P", [], .origin⟩,
    ⟨"q", .user, "Q", [], .origin⟩, ⟨"t", .user, "T", [], .origin⟩, ⟨"u", .user, "U", [], .origin⟩]

def rushedEdges : List Edge :=
  [⟨"1", "s", "t"⟩, ⟨"2", "s", "p"⟩, ⟨"3", "p", "q"⟩, ⟨"4", "q", "t"⟩, ⟨"5", "t", "u"⟩]

/-- The short way is walked twice, so that the walk goes on from its end before the long way has
led there; what is below stays above. -/
theorem arrangeBy_backward :
    (∀ n ∈ rushed, n.position.IsNumber) ∧
      Acyclic (Sweep.known (rushed.map Node.id) (rushedEdges.map Edge.pair)) ∧
      ∃ laid, arrangeBy (.string "vertical") rushed rushedEdges = .ok laid ∧
        ∃ e ∈ rushedEdges, ∃ a ∈ laid, ∃ b ∈ laid, a.id = e.source ∧ b.id = e.target ∧
          ¬ LayoutMode.vertical.Forward a.position b.position := by
  have together : ∀ n ∈ rushed, n.position = .origin := by decide +kernel
  have numbers := isNumber_of_origin together
  have laidOut : ∀ id ∈ rushed.map Node.id,
      ∃ n ∈ arrange .vertical rushed rushedEdges, n.id = id := by
    rw [← ids_arrange .vertical rushed rushedEdges]
    exact fun id listed => List.mem_map.mp listed
  obtain ⟨a, first, source⟩ := laidOut "t" (by decide)
  obtain ⟨b, second, target⟩ := laidOut "u" (by decide)
  have deep : tierIn (readingTiers rushed rushedEdges) "t" = 3 := by
    rw [readingTiers, readingIds_of_origin together]
    decide
  have high : tierIn (readingTiers rushed rushedEdges) "u" = 2 := by
    rw [readingTiers, readingIds_of_origin together]
    decide
  refine ⟨numbers, (acyclic_known_iff _ _).mp (by decide), _, arrangeBy_name .vertical _ _,
    ⟨"5", "t", "u"⟩, by decide, a, first, b, second, source, target, fun forward => ?_⟩
  rw [position_arrange numbers .vertical first, position_arrange numbers .vertical second, source,
    target] at forward
  have above : (placed .vertical (readingTiers rushed rushedEdges) (readingIds rushed) "u").y.Less
      (placed .vertical (readingTiers rushed rushedEdges) (readingIds rushed) "t").y :=
    less_cell_y (by rw [high, deep]; decide) (by rw [deep]; decide) _ _
  exact absurd forward.2.2 (not_lt_of_gt above.2.2)

end Edges

end Canvas

end PromptCanvas
