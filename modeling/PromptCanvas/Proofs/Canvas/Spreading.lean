import PromptCanvas.Proofs.Canvas.Arranging
import PromptCanvas.Proofs.Canvas.Storage

/-! # Where a layout puts the nodes of a canvas

`Spread`: a canvas with its nodes in cells of their own, all else as it was.  Every layout of
nodes with names of their own spreads them, with cycles too (`arrangeBy_spread`); on a grid
they fill the rows one after the other (`tile_iff`). -/

set_option autoImplicit false

namespace PromptCanvas

structure Position.InCell (p : Position) (column row : Nat) : Prop where
  x : p.x.toInt = some (100 + 320 * (column : Int))
  y : p.y.toInt = some (100 + 220 * (row : Int))

theorem Position.InCell.unique {p : Position} {column row column' row' : Nat}
    (first : p.InCell column row) (second : p.InCell column' row') :
    column = column' ∧ row = row' := by
  have onX := first.x.symm.trans second.x
  have onY := first.y.symm.trans second.y
  rw [Option.some_inj] at onX onY
  omega

namespace Layout

section Cells

variable {column row column' row' : Nat}

theorem inCell_cell (inColumns : column ≤ limit) (inRows : row ≤ limit) :
    (cell column row).InCell column row :=
  ⟨toInt_cell_x inColumns row, toInt_cell_y inRows column⟩

theorem rank_cell_inj (inColumns : column ≤ limit) (inRows : row ≤ limit)
    (inColumns' : column' ≤ limit) (inRows' : row' ≤ limit)
    (same : (cell column row).rank = (cell column' row').rank) : column = column' ∧ row = row' := by
  rcases Nat.lt_trichotomy row row' with above | rfl | below
  · exact absurd same (rank_cell_lt inColumns' inRows' (Or.inl above)).ne
  · rcases Nat.lt_trichotomy column column' with left | rfl | right
    · exact absurd same (rank_cell_lt inColumns' inRows' (Or.inr ⟨rfl, left⟩)).ne
    · exact ⟨rfl, rfl⟩
    · exact absurd same (rank_cell_lt inColumns inRows (Or.inr ⟨rfl, right⟩)).ne'
  · exact absurd same (rank_cell_lt inColumns inRows (Or.inl below)).ne'

theorem isLeast_ceilSqrt (n : Nat) : IsLeast {c | n ≤ c * c} (ceilSqrt n) := by
  have enough : n ≤ n * n := Nat.le_mul_self n
  have all : ((List.range (n + 1)).find? fun c => n ≤ c * c).isSome := by
    rw [List.find?_isSome]
    exact ⟨n, List.mem_range.mpr (Nat.lt_succ_self n), decide_eq_true enough⟩
  obtain ⟨c, found⟩ := Option.isSome_iff_exists.mp all
  have least := List.find?_range_eq_some.mp found
  rw [ceilSqrt, found, Option.getD_some]
  refine ⟨of_decide_eq_true least.1, fun d square => ?_⟩
  by_contra less
  have smaller := least.2.2 d (Nat.not_le.mp less)
  simp only [Bool.not_eq_true', decide_eq_false_iff_not] at smaller
  exact smaller square

theorem columns_eq {n : Nat} (positive : 0 < n) : max 1 (ceilSqrt n) = ceilSqrt n := by
  have square : n ≤ ceilSqrt n * ceilSqrt n := (isLeast_ceilSqrt n).1
  refine Nat.max_eq_right (Nat.pos_of_ne_zero fun none => ?_)
  rw [none] at square
  omega

end Cells

section Placing

variable {given : List (String × Nat)} {ids : List String} (distinct : ids.Nodup)
  (few : ids.length ≤ limit) (shallow : ∀ id ∈ ids, tierIn given id ≤ limit) (mode : LayoutMode)

include few shallow in
theorem inCell_placed {id : String} (listed : id ∈ ids) :
    ∃ column row, (placed mode given ids id).InCell column row := by
  have inTiers := shallow id listed
  have inLanes : laneOf given ids id ≤ limit := (laneOf_lt listed).le.trans few
  cases mode with
  | vertical => exact ⟨_, _, inCell_cell inLanes inTiers⟩
  | horizontal => exact ⟨_, _, inCell_cell inTiers inLanes⟩
  | grid =>
      have inside := lastIndexOf_lt ((Graph.byTier_perm given ids).mem_iff.mpr listed)
      rw [(Graph.byTier_perm given ids).length_eq] at inside
      have within := inside.le.trans few
      exact ⟨_, _, inCell_cell ((Nat.mod_le _ _).trans within) ((Nat.div_le_self _ _).trans within)⟩

include distinct few shallow in
theorem rank_placed_inj {a b : String} (first : a ∈ ids) (second : b ∈ ids)
    (same : (placed mode given ids a).rank = (placed mode given ids b).rank) : a = b := by
  have level : tierIn given a = tierIn given b := by
    by_cases sideways : mode = .horizontal
    · subst sideways
      rw [placed_horizontal, placed_horizontal] at same
      exact (rank_cell_inj (shallow a first) ((laneOf_lt first).le.trans few) (shallow b second)
        ((laneOf_lt second).le.trans few) same).1
    · rcases Nat.lt_trichotomy (tierIn given a) (tierIn given b) with above | level | below
      · exact absurd same (rank_placed_lt few sideways first second (shallow b second) above).ne
      · exact level
      · exact absurd same (rank_placed_lt few sideways second first (shallow a first) below).ne'
  have ranks :
      ((row given ids (tierIn given b)).map fun id => (placed mode given ids id).rank).Nodup :=
    List.pairwise_map.mpr ((pairwise_row distinct few shallow mode _).imp ne_of_lt)
  exact List.inj_on_of_nodup_map ranks (mem_row.mpr ⟨first, level⟩) (mem_row.mpr ⟨second, rfl⟩) same

include distinct few in
/-- The cells that are taken on a grid are the first ones, row by row. -/
theorem tile_iff (column row : Nat) :
    (∃ id ∈ ids, (placed .grid given ids id).InCell column row) ↔
      column < ceilSqrt ids.length ∧ row * ceilSqrt ids.length + column < ids.length := by
  have tiled := Graph.byTier_perm given ids
  constructor
  · rintro ⟨id, listed, here⟩
    have inside := lastIndexOf_lt (tiled.mem_iff.mpr listed)
    rw [tiled.length_eq] at inside
    have within := inside.le.trans few
    rw [placed_grid, gridCell, columns_eq (by omega)] at here
    obtain ⟨rfl, rfl⟩ := here.unique
      (inCell_cell ((Nat.mod_le _ _).trans within) ((Nat.div_le_self _ _).trans within))
    have wide : 0 < ceilSqrt ids.length := by
      rw [← columns_eq ((Nat.zero_le _).trans_lt inside)]
      exact Nat.le_max_left ..
    exact ⟨Nat.mod_lt _ wide, (Nat.div_add_mod' _ _).symm ▸ inside⟩
  · rintro ⟨inColumns, inside⟩
    obtain ⟨id, tile⟩ : ∃ id,
        (Graph.byTier given ids)[row * ceilSqrt ids.length + column]? = some id :=
      ⟨_, List.getElem?_eq_getElem (tiled.length_eq.symm ▸ inside)⟩
    refine ⟨id, tiled.mem_iff.mp (List.mem_of_getElem? tile), ?_⟩
    have positive : 0 < ids.length := (Nat.zero_le _).trans_lt inside
    have onX : (row * ceilSqrt ids.length + column) % ceilSqrt ids.length = column := by
      rw [Nat.add_comm, Nat.add_mul_mod_self_right, Nat.mod_eq_of_lt inColumns]
    have onY : (row * ceilSqrt ids.length + column) / ceilSqrt ids.length = row := by
      rw [Nat.add_comm, Nat.add_mul_div_right _ _ (Nat.zero_lt_of_lt inColumns),
        Nat.div_eq_of_lt inColumns, Nat.zero_add]
    have within := inside.le.trans few
    have inRows : row ≤ limit := (onY ▸ Nat.div_le_self _ _).trans within
    rw [placed_grid_eq distinct tile, gridCell, columns_eq positive, onX, onY]
    exact inCell_cell ((Nat.le_add_left _ _).trans within) inRows

end Placing

end Layout

namespace Canvas

open Layout

section Spread

/-- The nodes as they were but for their places, and each in a cell of its own.  On a grid, which
has as few columns as hold all nodes in a square, the first cells are taken, row by row. -/
structure Spread (mode : LayoutMode) (nodes laid : List Node) : Prop where
  kept : List.Forall₂ (fun n m => m = { n with position := m.position }) nodes laid
  cells : ∀ n ∈ laid, ∃ column row, n.position.InCell column row
  apart : laid.Pairwise fun a b => a.position.Apart b.position
  filled : mode = .grid → ∃ columns, IsLeast {c | laid.length ≤ c * c} columns ∧
    ∀ column row, (∃ n ∈ laid, n.position.InCell column row) ↔
      column < columns ∧ row * columns + column < laid.length

variable {nodes : List Node} {edges : List Edge}

theorem kept_arrange (mode : LayoutMode) :
    List.Forall₂ (fun n m => m = { n with position := m.position }) nodes
      (arrange mode nodes edges) := by
  rw [arrange, List.forall₂_map_right_iff, List.forall₂_same]
  intro n _
  rfl

variable (distinct : (nodes.map Node.id).Nodup) (numbers : ∀ n ∈ nodes, n.position.IsNumber)
  (few : nodes.length ≤ limit) (mode : LayoutMode)

include distinct numbers few

theorem apart_arrange :
    (arrange mode nodes edges).Pairwise fun a b => a.position.Apart b.position := by
  have laidNumbers : ∀ n ∈ arrange mode nodes edges, n.position.IsNumber :=
    isNumber_arrange distinct numbers few mode
  have names : (arrange mode nodes edges).Pairwise fun a b => a.id ≠ b.id := by
    rw [← List.pairwise_map, ids_arrange]
    exact distinct
  refine names.imp_of_mem fun {a b} first second differ => ?_
  have ranks : a.position.rank ≠ b.position.rank := by
    intro same
    rw [position_arrange numbers mode first, position_arrange numbers mode second] at same
    exact differ (rank_placed_inj (readingIds_nodup distinct)
      ((length_readingIds nodes).trans_le few) (fun _ => tierIn_readingTiers_le distinct few) mode
      (mem_readingIds_of_arrange mode first) (mem_readingIds_of_arrange mode second) same)
  rcases lt_or_gt_of_ne ranks with before | after
  · exact Or.inl (.of_rank_lt (laidNumbers a first) (laidNumbers b second) before)
  · exact Or.inr (.of_rank_lt (laidNumbers b second) (laidNumbers a first) after)

theorem spread_arrange : Spread mode nodes (arrange mode nodes edges) := by
  have fewIds : (readingIds nodes).length ≤ limit := (length_readingIds nodes).trans_le few
  constructor
  case kept => exact kept_arrange mode
  case cells =>
    intro n member
    rw [position_arrange numbers mode member]
    exact inCell_placed fewIds (fun _ => tierIn_readingTiers_le distinct few) mode
      (mem_readingIds_of_arrange mode member)
  case apart => exact apart_arrange distinct numbers few mode
  case filled =>
    rintro rfl
    have count : (arrange .grid nodes edges).length = (readingIds nodes).length := by
      rw [arrange, List.length_map, length_readingIds]
    rw [count]
    refine ⟨_, isLeast_ceilSqrt _, fun column row => ?_⟩
    have tiles : (∃ id ∈ readingIds nodes,
        (placed .grid (readingTiers nodes edges) (readingIds nodes) id).InCell column row) ↔ _ :=
      tile_iff (readingIds_nodup distinct) fewIds column row
    rw [← tiles]
    constructor
    · rintro ⟨n, member, here⟩
      rw [position_arrange numbers .grid member] at here
      exact ⟨n.id, mem_readingIds_of_arrange .grid member, here⟩
    · rintro ⟨id, listed, here⟩
      have listed' : id ∈ readingIds (arrange .grid nodes edges) :=
        (readingIds_arrange_perm .grid).mem_iff.mpr listed
      obtain ⟨n, member, rfl⟩ := List.mem_map.mp ((readingIds_perm _).mem_iff.mp listed')
      exact ⟨n, member, by rw [position_arrange numbers .grid member]; exact here⟩

end Spread

section Naming

variable {nodes : List Node} {edges : List Edge}

/-- Whatever the edges, cycles and edges from nowhere among them, a layout spreads the nodes. -/
theorem arrangeBy_spread (distinct : (nodes.map Node.id).Nodup)
    (numbers : ∀ n ∈ nodes, n.position.IsNumber) (few : nodes.length < 2 ^ 40)
    (mode : LayoutMode) :
    ∃ laid, arrangeBy (.string mode.name) nodes edges = .ok laid ∧ Spread mode nodes laid :=
  ⟨arrange mode nodes edges, arrangeBy_name .., spread_arrange distinct numbers few.le mode⟩

def heaped : List Node :=
  [⟨"a", .user, "A", [⟨⟨"first", .one⟩, "i"⟩], .origin⟩, ⟨"b", .system, "B", [], .origin⟩,
    ⟨"c", .user, "C", [], .origin⟩]

def heapedEdges : List Edge :=
  [⟨"1", "a", "b"⟩, ⟨"2", "b", "a"⟩, ⟨"3", "b", "c"⟩, ⟨"4", "x", "a"⟩]

theorem arrangeBy_spread_heaped :
    ∃ laid, arrangeBy (.string "grid") heaped heapedEdges = .ok laid ∧
      Spread .grid heaped laid := by
  have distinct : (heaped.map Node.id).Nodup := by decide
  have together : ∀ n ∈ heaped, n.position = .origin := by decide +kernel
  exact arrangeBy_spread distinct (isNumber_of_origin together) (by decide) .grid

end Naming

end Canvas

end PromptCanvas
