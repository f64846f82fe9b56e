import PromptCanvas.Proofs.Canvas.Rows
import PromptCanvas.Proofs.Graph.Stranded

/-! # Layouts one after the other

`arranged_eq`: a layout puts the nodes of a canvas by their tiers and by the rows of the
identifiers in reading order.  Reading a layout back gives the rows from which it was made
(`row_arrange`), so that a layout takes no notice of the one before (`arrange_arrange`). -/

set_option autoImplicit false

namespace PromptCanvas

open Layout

theorem LayoutMode.ofJson_name (mode : LayoutMode) : ofJson (.string mode.name) = .ok mode := by
  cases mode <;> rfl

namespace Canvas

section Reading

variable {nodes : List Node} {edges : List (String × String)}

def readingIds (nodes : List Node) : List String := (inReadingOrder nodes).map Node.id

theorem readingIds_perm (nodes : List Node) : (readingIds nodes).Perm (nodes.map Node.id) :=
  (List.mergeSort_perm _ _).map _

theorem length_readingIds (nodes : List Node) : (readingIds nodes).length = nodes.length := by
  rw [(readingIds_perm nodes).length_eq, List.length_map]

theorem readingIds_of_origin (together : ∀ n ∈ nodes, n.position = .origin) :
    readingIds nodes = nodes.map Node.id := by
  have level : inReadingOrder nodes = nodes := by
    refine List.mergeSort_of_pairwise (List.pairwise_of_forall_mem_list fun a first b second => ?_)
    rw [together a first, together b second]
    rfl
  rw [readingIds, level]

theorem isNumber_of_origin (together : ∀ n ∈ nodes, n.position = .origin) :
    ∀ n ∈ nodes, n.position.IsNumber := by
  intro n member
  rw [together n member]
  exact ⟨rfl, rfl⟩

variable (numbers : ∀ n ∈ nodes, n.position.IsNumber)

include numbers

theorem sortedBy_inReadingOrder :
    SortedBy (fun n : Node => n.position.rank) nodes (inReadingOrder nodes) :=
  sortedBy_mergeSort fun a first b second =>
    Position.before_eq (numbers a first).y (numbers b second).y

theorem map_inTierOrder (given : List (String × Nat)) :
    (inTierOrder given (inReadingOrder nodes)).map Node.id =
      Graph.byTier given (readingIds nodes) := by
  have read := sortedBy_inReadingOrder numbers
  have height : ∀ n ∈ inReadingOrder nodes, n.position.y.isNan = false := fun n member =>
    (numbers n ((List.mergeSort_perm _ _).mem_iff.mp member)).y
  have byBoth : SortedBy (fun n : Node => toLex (tierIn given n.id, n.position.rank))
      (inReadingOrder nodes) (inTierOrder given (inReadingOrder nodes)) := by
    refine sortedBy_mergeSort fun a first b second => ?_
    rw [Position.before_eq (height a first) (height b second)]
    by_cases level : tierIn given a.id = tierIn given b.id
    · simp [level, Prod.Lex.toLex_le_toLex]
    · simp [level, Prod.Lex.toLex_le_toLex]
  have byTier : SortedBy (fun n : Node => tierIn given n.id) (inReadingOrder nodes)
      ((inReadingOrder nodes).mergeSort fun a b => tierIn given a.id ≤ tierIn given b.id) :=
    sortedBy_mergeSort fun _ _ _ _ => rfl
  rw [byBoth.unique (byTier.refine read.ordered), Graph.byTier, readingIds]
  exact List.map_mergeSort fun _ _ _ _ => rfl

theorem arranged_eq (mode : LayoutMode) (id : String) :
    arranged mode nodes edges id =
      placed mode (tiers (readingIds nodes) edges) (readingIds nodes) id := by
  cases mode with
  | vertical => rfl
  | horizontal => rfl
  | grid =>
      rw [placed_grid, ← map_inTierOrder numbers, length_readingIds]
      rfl

end Reading

section Again

variable {nodes : List Node} {edges : List Edge} (distinct : (nodes.map Node.id).Nodup)
  (numbers : ∀ n ∈ nodes, n.position.IsNumber) (few : nodes.length ≤ limit) (mode : LayoutMode)

theorem ids_arrange (mode : LayoutMode) (nodes : List Node) (edges : List Edge) :
    (arrange mode nodes edges).map Node.id = nodes.map Node.id := by
  rw [arrange, List.map_map]
  rfl

theorem map_arrange (place : String → Position) :
    ((arrange mode nodes edges).map fun n => { n with position := place n.id }) =
      nodes.map fun n => { n with position := place n.id } := by
  rw [arrange, List.map_map]
  rfl

def readingTiers (nodes : List Node) (edges : List Edge) : List (String × Nat) :=
  tiers (readingIds nodes) (edges.map Edge.pair)

include distinct in
theorem readingIds_nodup : (readingIds nodes).Nodup :=
  (readingIds_perm nodes).nodup_iff.mpr distinct

include distinct few in
theorem tierIn_readingTiers_le {id : String} (listed : id ∈ readingIds nodes) :
    tierIn (readingTiers nodes edges) id ≤ limit :=
  (tierIn_tiers_le (readingIds_nodup distinct) listed).trans
    ((length_readingIds nodes).trans_le few)

include numbers in
theorem arrange_eq :
    arrange mode nodes edges = nodes.map fun n =>
      { n with position := placed mode (readingTiers nodes edges) (readingIds nodes) n.id } := by
  rw [arrange]
  simp only [arranged_eq numbers]
  rfl

include numbers in
theorem position_arrange {n : Node} (member : n ∈ arrange mode nodes edges) :
    n.position = placed mode (readingTiers nodes edges) (readingIds nodes) n.id := by
  rw [arrange_eq numbers] at member
  obtain ⟨m, -, rfl⟩ := List.mem_map.mp member
  rfl

theorem readingIds_arrange_perm :
    (readingIds (arrange mode nodes edges)).Perm (readingIds nodes) := by
  have read := readingIds_perm (arrange mode nodes edges)
  rw [ids_arrange] at read
  exact read.trans (readingIds_perm nodes).symm

theorem mem_readingIds_of_arrange {n : Node} (member : n ∈ arrange mode nodes edges) :
    n.id ∈ readingIds nodes := by
  have listed := List.mem_map_of_mem (f := Node.id) member
  rw [ids_arrange] at listed
  exact (readingIds_perm nodes).mem_iff.mpr listed

include distinct numbers few

theorem isNumber_arrange : ∀ n ∈ arrange mode nodes edges, n.position.IsNumber := by
  intro n member
  rw [position_arrange numbers mode member]
  exact isNumber_placed ((length_readingIds nodes).trans_le few)
    (fun id => tierIn_readingTiers_le distinct few) mode (mem_readingIds_of_arrange mode member)

theorem pairwise_readingIds_arrange :
    (readingIds (arrange mode nodes edges)).Pairwise fun a b =>
      (placed mode (readingTiers nodes edges) (readingIds nodes) a).rank ≤
        (placed mode (readingTiers nodes edges) (readingIds nodes) b).rank := by
  have laidNumbers : ∀ n ∈ arrange mode nodes edges, n.position.IsNumber :=
    isNumber_arrange distinct numbers few mode
  refine List.pairwise_map.mpr
    ((sortedBy_inReadingOrder laidNumbers).ordered.imp_of_mem fun first second le => ?_)
  rwa [position_arrange numbers mode ((List.mergeSort_perm _ _).mem_iff.mp first),
    position_arrange numbers mode ((List.mergeSort_perm _ _).mem_iff.mp second)] at le

/-- Read back, a layout shows in their order whatever it placed in their order. -/
theorem filter_readingIds_arrange {p : String → Bool}
    (strict : ((readingIds nodes).filter p).Pairwise fun a b =>
      (placed mode (readingTiers nodes edges) (readingIds nodes) a).rank <
        (placed mode (readingTiers nodes edges) (readingIds nodes) b).rank) :
    (readingIds (arrange mode nodes edges)).filter p = (readingIds nodes).filter p :=
  -- strictly growing positions leave no choice between two orders
  eq_of_perm_of_lt ((pairwise_readingIds_arrange distinct numbers few mode).filter _) strict
    ((readingIds_arrange_perm mode).filter _)

theorem row_arrange (tier : Nat) :
    row (readingTiers nodes edges) (readingIds (arrange mode nodes edges)) tier =
      row (readingTiers nodes edges) (readingIds nodes) tier :=
  filter_readingIds_arrange distinct numbers few mode
    (pairwise_row (readingIds_nodup distinct) ((length_readingIds nodes).trans_le few)
      (fun _ => tierIn_readingTiers_le distinct few) mode tier)

/-- A layout that leaves the tiers as they are is forgotten by the next one. -/
theorem arrange_arrange_of_tiers (first second : LayoutMode)
    (sameTier : ∀ id ∈ readingIds nodes,
      tierIn (readingTiers (arrange first nodes edges) edges) id =
        tierIn (readingTiers nodes edges) id) :
    arrange second (arrange first nodes edges) edges = arrange second nodes edges := by
  have laidNumbers : ∀ n ∈ arrange first nodes edges, n.position.IsNumber :=
    isNumber_arrange distinct numbers few first
  rw [arrange_eq laidNumbers second, map_arrange, arrange_eq numbers second]
  refine List.map_congr_left fun n member => ?_
  have listed := (readingIds_perm nodes).mem_iff.mpr (List.mem_map_of_mem member)
  rw [placed_congr second (readingIds_arrange_perm first).symm sameTier
    (row_arrange distinct numbers few first) listed]

theorem arrange_arrange
    (acyclic : Acyclic (Sweep.known (nodes.map Node.id) (edges.map Edge.pair)))
    (first second : LayoutMode) :
    arrange second (arrange first nodes edges) edges = arrange second nodes edges := by
  refine arrange_arrange_of_tiers distinct numbers few first second fun _ listed => ?_
  refine tierIn_tiers_perm (readingIds_nodup distinct) (readingIds_arrange_perm first).symm ?_
    listed
  rwa [Sweep.known_congr fun _ => (readingIds_perm nodes).mem_iff]

end Again

section Naming

variable {nodes : List Node} {edges : List Edge}

theorem arrangeBy_name (mode : LayoutMode) (nodes : List Node) (edges : List Edge) :
    arrangeBy (.string mode.name) nodes edges = .ok (arrange mode nodes edges) := by
  rw [arrangeBy]
  split
  · rename_i none
    rw [List.isEmpty_iff.mp none]
    rfl
  · rw [LayoutMode.ofJson_name]
    rfl

/-- Between a canvas and its layout, another layout makes no difference. -/
theorem arrangeBy_arrangeBy (distinct : (nodes.map Node.id).Nodup)
    (numbers : ∀ n ∈ nodes, n.position.IsNumber) (few : nodes.length < 2 ^ 40)
    (acyclic : Acyclic (Sweep.known (nodes.map Node.id) (edges.map Edge.pair)))
    (first second : LayoutMode) :
    ∃ detour laid, arrangeBy (.string first.name) nodes edges = .ok detour ∧
      arrangeBy (.string second.name) detour edges = .ok laid ∧
        arrangeBy (.string second.name) nodes edges = .ok laid := by
  refine ⟨arrange first nodes edges, arrange second nodes edges, arrangeBy_name .., ?_,
    arrangeBy_name ..⟩
  rw [arrangeBy_name, arrange_arrange distinct numbers few.le acyclic]

def stacked : List Node :=
  [⟨"c", .user, "", [], .origin⟩, ⟨"b", .user, "", [], .origin⟩, ⟨"a", .user, "", [], .origin⟩]

def stackedEdges : List Edge := [⟨"1", "a", "b"⟩, ⟨"2", "x", "a"⟩]

theorem arrangeBy_arrangeBy_stacked :
    ∃ detour laid, arrangeBy (.string "grid") stacked stackedEdges = .ok detour ∧
      arrangeBy (.string "horizontal") detour stackedEdges = .ok laid ∧
        arrangeBy (.string "horizontal") stacked stackedEdges = .ok laid := by
  have distinct : (stacked.map Node.id).Nodup := by decide
  have numbers : ∀ n ∈ stacked, n.position.IsNumber := by
    intro n member
    have together : ∀ n ∈ stacked, n.position = .origin := by decide +kernel
    rw [together n member]
    exact ⟨rfl, rfl⟩
  have acyclic : Acyclic (Sweep.known (stacked.map Node.id) (stackedEdges.map Edge.pair)) :=
    (length_settled_iff distinct (stackedEdges.map Edge.pair)).mp (by decide)
  exact arrangeBy_arrangeBy distinct numbers (by decide) acyclic .grid .horizontal

end Naming

end Canvas

end PromptCanvas
