import PromptCanvas.Proofs.Canvas.Search
import PromptCanvas.Proofs.Graph.Drawing
import PromptCanvas.Proofs.Graph.Levels
import PromptCanvas.Proofs.Number.Integers

/-! # Rows of a layout

`row`: the identifiers of one tier in the order in which they are given.  Every layout places
them by their tiers and rows alone (`placed_congr`), and further on in a row means later in
reading order (`pairwise_row`).  `arranged_eq` says so of the layouts of a canvas, whose
identifiers are given in reading order. -/

set_option autoImplicit false

namespace PromptCanvas

namespace Layout

section Cells

variable {column row column' row' : Nat}

/-- Up to here the coordinates of columns and rows are exact. -/
def limit : Nat := 2 ^ 40

theorem cell_x (column row : Nat) : (cell column row).x = .ofNat (100 + column * 320) := by
  simp only [cell]

theorem cell_y (column row : Nat) : (cell column row).y = .ofNat (100 + row * 220) := by
  simp only [cell]

theorem toInt_cell_x (inColumns : column ≤ limit) (row : Nat) :
    (cell column row).x.toInt = some (100 + 320 * (column : Int)) := by
  rw [limit] at inColumns
  rw [cell_x, Binary64.toInt_ofNat (by omega), Option.some_inj]
  omega

theorem toInt_cell_y (inRows : row ≤ limit) (column : Nat) :
    (cell column row).y.toInt = some (100 + 220 * (row : Int)) := by
  rw [limit] at inRows
  rw [cell_y, Binary64.toInt_ofNat (by omega), Option.some_inj]
  omega

theorem isNumber_cell (inColumns : column ≤ limit) (inRows : row ≤ limit) :
    (cell column row).IsNumber := by
  rw [limit] at inColumns inRows
  constructor
  · rw [cell_x]
    exact Binary64.isNan_ofNat (by omega)
  · rw [cell_y]
    exact Binary64.isNan_ofNat (by omega)

/-- Cells are in reading order as their rows are, and in a row as their columns are. -/
theorem rank_cell_lt (inColumns : column' ≤ limit) (inRows : row' ≤ limit)
    (before : row < row' ∨ row = row' ∧ column < column') :
    (cell column row).rank < (cell column' row').rank := by
  rw [limit] at inColumns inRows
  rw [Position.rank_lt_iff, cell_x, cell_x, cell_y, cell_y]
  rcases before with above | ⟨rfl, left⟩
  · exact Or.inl (Binary64.key_ofNat_lt (by omega) (by omega))
  · exact Or.inr ⟨rfl, Binary64.key_ofNat_lt (by omega) (by omega)⟩

theorem isNumber_gridCell (n : Nat) {i : Nat} (few : i ≤ limit) : (gridCell n i).IsNumber := by
  rw [gridCell]
  exact isNumber_cell ((Nat.mod_le _ _).trans few) ((Nat.div_le_self _ _).trans few)

theorem rank_gridCell_lt (n : Nat) {i j : Nat} (less : i < j) (few : j ≤ limit) :
    (gridCell n i).rank < (gridCell n j).rank := by
  rw [gridCell, gridCell]
  refine rank_cell_lt ((Nat.mod_le _ _).trans few) ((Nat.div_le_self _ _).trans few) ?_
  rcases Nat.lt_or_eq_of_le (Nat.div_le_div_right (c := max 1 (ceilSqrt n)) less.le) with
    above | level
  · exact Or.inl above
  · have first := Nat.div_add_mod i (max 1 (ceilSqrt n))
    have second := Nat.div_add_mod j (max 1 (ceilSqrt n))
    rw [level] at first
    exact Or.inr ⟨level, by omega⟩

theorem isNumber_tierCell (mode : LayoutMode) {tier lane : Nat} (inTiers : tier ≤ limit)
    (inLanes : lane ≤ limit) : (tierCell mode tier lane).IsNumber := by
  cases mode with
  | vertical => exact isNumber_cell inLanes inTiers
  | horizontal => exact isNumber_cell inTiers inLanes
  | grid => exact isNumber_cell inLanes inTiers

/-- Further on in a tier is later in reading order, be the tier a row or a column. -/
theorem rank_tierCell_lt (mode : LayoutMode) {tier lane lane' : Nat} (inTiers : tier ≤ limit)
    (inLanes : lane' ≤ limit) (less : lane < lane') :
    (tierCell mode tier lane).rank < (tierCell mode tier lane').rank := by
  cases mode with
  | vertical => exact rank_cell_lt inLanes inTiers (Or.inr ⟨rfl, less⟩)
  | horizontal => exact rank_cell_lt inTiers inLanes (Or.inl less)
  | grid => exact rank_cell_lt inLanes inTiers (Or.inr ⟨rfl, less⟩)

end Cells

section Rows

variable {given : List (String × Nat)} {ids : List String}

theorem getElem?_lastIndexOf {id : String} (listed : id ∈ ids) :
    ids[lastIndexOf id ids]? = some id := by
  have inside : ids.reverse.idxOf id < ids.reverse.length :=
    List.idxOf_lt_length_iff.mpr (List.mem_reverse.mpr listed)
  have mirrored := List.getElem_idxOf inside
  rw [List.getElem_reverse] at mirrored
  rw [lastIndexOf, List.getElem?_eq_some_iff]
  exact ⟨_, mirrored⟩

theorem lastIndexOf_lt {id : String} (listed : id ∈ ids) : lastIndexOf id ids < ids.length :=
  (List.getElem?_eq_some_iff.mp (getElem?_lastIndexOf listed)).1

theorem lastIndexOf_eq (distinct : ids.Nodup) {i : Nat} {id : String} (place : ids[i]? = some id) :
    lastIndexOf id ids = i := by
  have found := getElem?_lastIndexOf (List.mem_of_getElem? place)
  rw [← place] at found
  exact (List.getElem?_inj (lastIndexOf_lt (List.mem_of_getElem? place)) distinct).mp found

def row (given : List (String × Nat)) (ids : List String) (tier : Nat) : List String :=
  ids.filter fun id => tierIn given id = tier

theorem row_nodup (distinct : ids.Nodup) (tier : Nat) : (row given ids tier).Nodup :=
  distinct.filter _

theorem mem_row {tier : Nat} {id : String} :
    id ∈ row given ids tier ↔ id ∈ ids ∧ tierIn given id = tier := by
  rw [row, List.mem_filter, decide_eq_true_iff]

theorem length_row_le (tier : Nat) : (row given ids tier).length ≤ ids.length :=
  List.length_filter_le _ _

theorem laneOf_eq_row (id : String) :
    laneOf given ids id = lastIndexOf id (row given ids (tierIn given id)) := by
  rw [laneOf, row]
  simp only [beq_eq_decide]

theorem laneOf_lt {id : String} (listed : id ∈ ids) : laneOf given ids id < ids.length := by
  rw [laneOf_eq_row]
  exact (lastIndexOf_lt (mem_row.mpr ⟨listed, rfl⟩)).trans_le (length_row_le _)

theorem tierPosition_eq (mode : LayoutMode) (distinct : ids.Nodup) {tier i : Nat} {id : String}
    (place : (row given ids tier)[i]? = some id) :
    tierPosition mode given ids id = tierCell mode tier i := by
  have here := (mem_row.mp (List.mem_of_getElem? place)).2
  rw [tierPosition, laneOf_eq_row, here, lastIndexOf_eq (row_nodup distinct tier) place]

end Rows

section Placing

def placed (mode : LayoutMode) (given : List (String × Nat)) (ids : List String) (id : String) :
    Position :=
  match mode with
  | .grid => gridCell ids.length (lastIndexOf id (Graph.byTier given ids))
  | _ => tierPosition mode given ids id

variable {given : List (String × Nat)} {ids : List String}

theorem placed_grid (id : String) :
    placed .grid given ids id = gridCell ids.length (lastIndexOf id (Graph.byTier given ids)) :=
  rfl

theorem placed_tiered {mode : LayoutMode} (tiered : mode ≠ .grid) (id : String) :
    placed mode given ids id = tierPosition mode given ids id := by
  cases mode with
  | vertical => rfl
  | horizontal => rfl
  | grid => exact absurd rfl tiered

theorem placed_horizontal (id : String) :
    placed .horizontal given ids id = cell (tierIn given id) (laneOf given ids id) :=
  rfl

theorem byTier_congr {other : List (String × Nat)}
    (same : ∀ id ∈ ids, tierIn other id = tierIn given id) :
    Graph.byTier other ids = Graph.byTier given ids := by
  have sorted : SortedBy (tierIn given) ids (Graph.byTier other ids) :=
    sortedBy_mergeSort fun a first b second => by rw [same a first, same b second]
  exact sorted.unique (Graph.sortedBy_byTier given ids)

theorem row_congr {other : List (String × Nat)}
    (same : ∀ id ∈ ids, tierIn other id = tierIn given id) (tier : Nat) :
    row other ids tier = row given ids tier :=
  List.filter_congr fun id member => by rw [same id member]

/-- Nothing counts for a layout but the tiers and what stands in each. -/
theorem placed_congr (mode : LayoutMode) {other : List (String × Nat)} {others : List String}
    (listed : ids.Perm others) (same : ∀ id ∈ ids, tierIn other id = tierIn given id)
    (rows : ∀ tier, row given others tier = row given ids tier) {id : String} (member : id ∈ ids) :
    placed mode other others id = placed mode given ids id := by
  have sameOthers : ∀ id ∈ others, tierIn other id = tierIn given id := fun id member =>
    same id (listed.mem_iff.mpr member)
  by_cases tiered : mode = .grid
  · subst tiered
    have tiled : Graph.byTier other others = Graph.byTier given ids := by
      rw [byTier_congr sameOthers]
      refine eq_of_filter_eq (Graph.sortedBy_byTier given others).ordered
        (Graph.sortedBy_byTier given ids).ordered fun tier => ?_
      rw [(Graph.sortedBy_byTier given others).stable, (Graph.sortedBy_byTier given ids).stable]
      exact rows tier
    rw [placed_grid, placed_grid, tiled, listed.length_eq]
  · rw [placed_tiered tiered, placed_tiered tiered, tierPosition, tierPosition, laneOf_eq_row,
      laneOf_eq_row, row_congr sameOthers, same id member, rows]

theorem getElem?_byTier_lt {i : Nat} {id : String}
    (tile : (Graph.byTier given ids)[i]? = some id) : i < ids.length := by
  rw [← (Graph.byTier_perm given ids).length_eq]
  exact (List.getElem?_eq_some_iff.mp tile).1

theorem placed_grid_eq (distinct : ids.Nodup) {i : Nat} {id : String}
    (tile : (Graph.byTier given ids)[i]? = some id) :
    placed .grid given ids id = gridCell ids.length i := by
  rw [placed_grid, lastIndexOf_eq ((Graph.byTier_perm given ids).nodup_iff.mpr distinct) tile]

theorem lastIndexOf_byTier_lt {a b : String} (first : a ∈ ids) (second : b ∈ ids)
    (less : tierIn given a < tierIn given b) :
    lastIndexOf a (Graph.byTier given ids) < lastIndexOf b (Graph.byTier given ids) := by
  have sorted := Graph.sortedBy_byTier given ids
  have listed := fun v => (Graph.byTier_perm given ids).mem_iff (a := v)
  obtain ⟨inside, onA⟩ :=
    List.getElem?_eq_some_iff.mp (getElem?_lastIndexOf ((listed a).mpr first))
  obtain ⟨inside', onB⟩ :=
    List.getElem?_eq_some_iff.mp (getElem?_lastIndexOf ((listed b).mpr second))
  by_contra later
  rcases Nat.lt_or_eq_of_le (Nat.not_lt.mp later) with before | level
  · have le := List.pairwise_iff_getElem.mp sorted.ordered _ _ inside' inside before
    rw [onA, onB] at le
    exact absurd less (Nat.not_lt.mpr le)
  · simp only [level, onA] at onB
    exact absurd (onB ▸ less) (Nat.lt_irrefl _)

variable (distinct : ids.Nodup) (few : ids.length ≤ limit)

include few in
/-- From top to bottom and on a grid, a deeper tier is later in reading order. -/
theorem rank_placed_lt {mode : LayoutMode} (upright : mode ≠ .horizontal) {a b : String}
    (first : a ∈ ids) (second : b ∈ ids) (shallow : tierIn given b ≤ limit)
    (less : tierIn given a < tierIn given b) :
    (placed mode given ids a).rank < (placed mode given ids b).rank := by
  cases mode with
  | vertical => exact rank_cell_lt ((laneOf_lt second).le.trans few) shallow (Or.inl less)
  | horizontal => exact absurd rfl upright
  | grid =>
      have tile := lastIndexOf_byTier_lt first second less
      have inside := lastIndexOf_lt ((Graph.byTier_perm given ids).mem_iff.mpr second)
      rw [(Graph.byTier_perm given ids).length_eq] at inside
      exact rank_gridCell_lt _ tile (inside.le.trans few)

include few in
theorem getElem?_row_le {tier i : Nat} {id : String}
    (place : (row given ids tier)[i]? = some id) : i ≤ limit := by
  obtain ⟨inside, -⟩ := List.getElem?_eq_some_iff.mp place
  exact (inside.le.trans (length_row_le tier)).trans few

include distinct few in
theorem pairwise_tiles :
    (Graph.byTier given ids).Pairwise fun a b =>
      (placed .grid given ids a).rank < (placed .grid given ids b).rank := by
  rw [List.pairwise_iff_getElem]
  intro i j first second less
  have later := List.getElem?_eq_getElem second
  rw [placed_grid_eq distinct (List.getElem?_eq_getElem first), placed_grid_eq distinct later]
  exact rank_gridCell_lt _ less ((getElem?_byTier_lt later).le.trans few)

variable (shallow : ∀ id ∈ ids, tierIn given id ≤ limit)

include few shallow in
theorem isNumber_placed (mode : LayoutMode) {id : String} (listed : id ∈ ids) :
    (placed mode given ids id).IsNumber := by
  by_cases tiered : mode = .grid
  · subst tiered
    have inside := lastIndexOf_lt ((Graph.byTier_perm given ids).mem_iff.mpr listed)
    rw [(Graph.byTier_perm given ids).length_eq] at inside
    exact isNumber_gridCell _ (inside.le.trans few)
  · rw [placed_tiered tiered]
    exact isNumber_tierCell mode (shallow id listed) ((laneOf_lt listed).le.trans few)

include distinct few shallow in
theorem pairwise_row (mode : LayoutMode) (tier : Nat) :
    (row given ids tier).Pairwise fun a b =>
      (placed mode given ids a).rank < (placed mode given ids b).rank := by
  by_cases tiered : mode = .grid
  · subst tiered
    have sorted := Graph.sortedBy_byTier given ids
    rw [row, ← sorted.stable]
    exact (pairwise_tiles distinct few).filter _
  · rw [List.pairwise_iff_getElem]
    intro i j first second less
    have earlier := List.getElem?_eq_getElem first
    have later := List.getElem?_eq_getElem second
    obtain ⟨listed, here⟩ := mem_row.mp (List.getElem_mem second)
    rw [placed_tiered tiered, placed_tiered tiered, tierPosition_eq mode distinct earlier,
      tierPosition_eq mode distinct later]
    exact rank_tierCell_lt mode (here ▸ shallow _ listed) (getElem?_row_le few later) less

end Placing

end Layout

end PromptCanvas
