import PromptCanvas.Proofs.Canvas.Arranging

/-! # The same layout again

A layout that is made again changes nothing if it placed the stranded nodes in the order in
which it found them (`arrange_again_of_pairwise`).  From top to bottom and on a grid it always
does.  In horizontal mode all but the first of them stand in the first row, so it does exactly
if the first one stands there too or there is no other (`arrange_horizontal_again`,
`columned_of_again`): otherwise the first one falls behind, the others move up, and the nodes
never settle (`arrangeBy_swinging`). -/

set_option autoImplicit false

namespace PromptCanvas

section Pairs

variable {α κ : Type} [LinearOrder κ] {rank : α → κ} {s : List α}

/-- What holds along a list in order holds from a lesser element to a greater one. -/
theorem rel_of_lt {R : α → α → Prop} (ordered : s.Pairwise fun a b => rank a ≤ rank b)
    (holds : s.Pairwise R) {a b : α} (first : a ∈ s) (second : b ∈ s) (less : rank a < rank b) :
    R a b := by
  have forward : s.Pairwise fun x y => rank x < rank y → R x y :=
    holds.imp fun {x y} related (_ : rank x < rank y) => related
  have backward : s.Pairwise fun x y => rank y < rank x → R y x :=
    ordered.imp fun {x y} le (greater : rank y < rank x) => absurd greater (not_lt_of_ge le)
  have itself : ∀ x ∈ s, rank x < rank x → R x x := fun x _ irrefl => absurd irrefl (lt_irrefl _)
  exact List.Pairwise.forall_of_forall_of_flip itself forward backward first second less

theorem pairwise_idxOf [DecidableEq α] (distinct : s.Nodup) :
    s.Pairwise fun a b => s.idxOf a < s.idxOf b := by
  rw [List.pairwise_iff_getElem]
  intro i j first second less
  rwa [distinct.idxOf_getElem _ first, distinct.idxOf_getElem _ second]

end Pairs

namespace Layout

section Lanes

variable {given : List (String × Nat)} {ids : List String} (distinct : ids.Nodup)

include distinct

/-- An identifier stands first in its row if none of its tier is given before it. -/
theorem laneOf_eq_zero_iff {v : String} (listed : v ∈ ids) :
    laneOf given ids v = 0 ↔
      ∀ u ∈ ids, tierIn given u = tierIn given v → ids.idxOf v ≤ ids.idxOf u := by
  have inRow : v ∈ row given ids (tierIn given v) := mem_row.mpr ⟨listed, rfl⟩
  have ordered : (row given ids (tierIn given v)).Pairwise fun a b =>
      ids.idxOf a < ids.idxOf b := (pairwise_idxOf distinct).filter _
  rw [List.pairwise_iff_getElem] at ordered
  rw [laneOf_eq_row]
  obtain ⟨inside, here⟩ := List.getElem?_eq_some_iff.mp (getElem?_lastIndexOf inRow)
  constructor
  · intro lane u member level
    obtain ⟨j, within, rfl⟩ := List.mem_iff_getElem.mp (mem_row.mpr ⟨member, level⟩)
    rcases Nat.eq_zero_or_pos j with rfl | later
    · simp only [lane] at here
      rw [here]
    · have before := ordered 0 j (by omega) within later
      simp only [lane] at here
      rw [here] at before
      exact before.le
  · intro first
    by_contra lane
    have before := ordered 0 _ (by omega) inside (Nat.pos_of_ne_zero lane)
    obtain ⟨member, level⟩ := mem_row.mp
      (List.getElem_mem (l := row given ids (tierIn given v)) (by omega : 0 < _))
    rw [here] at before
    exact absurd before (Nat.not_lt.mpr (first _ member level))

end Lanes

end Layout

namespace Canvas

open Layout

section Again

variable {nodes : List Node} {edges : List Edge} (distinct : (nodes.map Node.id).Nodup)
  (numbers : ∀ n ∈ nodes, n.position.IsNumber) (few : nodes.length ≤ limit) (mode : LayoutMode)

def strandedIds (nodes : List Node) (edges : List Edge) : List String :=
  stranded (readingIds nodes) (edges.map Edge.pair)

theorem mem_readingIds_of_stranded {v : String} (left : v ∈ strandedIds nodes edges) :
    v ∈ readingIds nodes :=
  List.mem_of_mem_filter left

include distinct numbers few in
/-- A layout that keeps the stranded nodes in order is not changed when it is made again. -/
theorem arrange_again_of_pairwise
    (strict : (strandedIds nodes edges).Pairwise fun a b =>
      (placed mode (readingTiers nodes edges) (readingIds nodes) a).rank <
        (placed mode (readingTiers nodes edges) (readingIds nodes) b).rank) :
    arrange mode (arrange mode nodes edges) edges = arrange mode nodes edges := by
  have same : (readingIds nodes).Perm (readingIds (arrange mode nodes edges)) :=
    (readingIds_arrange_perm mode).symm
  have left : strandedIds (arrange mode nodes edges) edges = strandedIds nodes edges :=
    eq_of_perm_of_lt
      ((pairwise_readingIds_arrange distinct numbers few mode).sublist List.filter_sublist) strict
      (stranded_perm (readingIds_nodup distinct) same _).symm
  exact arrange_arrange_of_tiers distinct numbers few mode mode fun _ listed =>
    tierIn_tiers_of_stranded (readingIds_nodup distinct) same left listed

include distinct numbers few in
theorem arrange_again (upright : mode ≠ .horizontal) :
    arrange mode (arrange mode nodes edges) edges = arrange mode nodes edges := by
  refine arrange_again_of_pairwise distinct numbers few mode ?_
  refine (pairwise_stranded (readingIds_nodup distinct) _).imp_of_mem fun first second less => ?_
  have listed := mem_readingIds_of_stranded second
  exact rank_placed_lt ((length_readingIds nodes).trans_le few) upright
    (mem_readingIds_of_stranded first) listed (tierIn_readingTiers_le distinct few listed) less

end Again

section Columns

variable {nodes : List Node} {edges : List Edge}

/-- At most one node is cut off, or no node that shares its tier with one that is cut off is read
before that. -/
def Columned (nodes : List Node) (edges : List Edge) : Prop :=
  let cutOff := CutOff (Sweep.known (nodes.map Node.id) (edges.map Edge.pair))
  (∀ u ∈ readingIds nodes, ∀ v ∈ readingIds nodes, cutOff u → cutOff v → u = v) ∨
    ∀ v ∈ readingIds nodes, cutOff v → ∀ u ∈ readingIds nodes,
      tierIn (readingTiers nodes edges) u = tierIn (readingTiers nodes edges) v →
        (readingIds nodes).idxOf v ≤ (readingIds nodes).idxOf u

variable (distinct : (nodes.map Node.id).Nodup)

include distinct

theorem mem_strandedIds {v : String} :
    v ∈ strandedIds nodes edges ↔
      v ∈ readingIds nodes ∧ CutOff (Sweep.known (nodes.map Node.id) (edges.map Edge.pair)) v := by
  rw [strandedIds, mem_stranded (readingIds_nodup distinct),
    Sweep.known_congr fun _ => (readingIds_perm nodes).mem_iff]

theorem columned_iff : Columned nodes edges ↔
    (∀ u ∈ strandedIds nodes edges, ∀ v ∈ strandedIds nodes edges, u = v) ∨
      ∀ v ∈ strandedIds nodes edges,
        laneOf (readingTiers nodes edges) (readingIds nodes) v = 0 := by
  refine or_congr ⟨fun alone u first v second => ?_, fun alone u first v second onU onV => ?_⟩
    ⟨fun headed v left => ?_, fun headed v listed cut => ?_⟩
  · obtain ⟨⟨listed, cut⟩, listed', cut'⟩ :=
      And.intro ((mem_strandedIds distinct).mp first) ((mem_strandedIds distinct).mp second)
    exact alone u listed v listed' cut cut'
  · exact alone u ((mem_strandedIds distinct).mpr ⟨first, onU⟩) v
      ((mem_strandedIds distinct).mpr ⟨second, onV⟩)
  · obtain ⟨listed, cut⟩ := (mem_strandedIds distinct).mp left
    exact (laneOf_eq_zero_iff (readingIds_nodup distinct) listed).mpr (headed v listed cut)
  · exact (laneOf_eq_zero_iff (readingIds_nodup distinct) listed).mp
      (headed v ((mem_strandedIds distinct).mpr ⟨listed, cut⟩))

theorem eq_of_tierIn_eq {u v : String} (first : u ∈ strandedIds nodes edges)
    (second : v ∈ strandedIds nodes edges)
    (level : tierIn (readingTiers nodes edges) u = tierIn (readingTiers nodes edges) v) :
    u = v := by
  have ordered := pairwise_stranded (readingIds_nodup distinct) (edges.map Edge.pair)
  have tiers : ((strandedIds nodes edges).map (tierIn (readingTiers nodes edges))).Nodup :=
    List.pairwise_map.mpr (ordered.imp ne_of_lt)
  exact List.inj_on_of_nodup_map tiers first second level

theorem laneOf_of_below {u v : String} (first : u ∈ strandedIds nodes edges)
    (second : v ∈ strandedIds nodes edges)
    (below : tierIn (readingTiers nodes edges) u < tierIn (readingTiers nodes edges) v) :
    laneOf (readingTiers nodes edges) (readingIds nodes) v = 0 := by
  have once := readingIds_nodup distinct
  rw [laneOf_eq_zero_iff once (mem_readingIds_of_stranded second)]
  intro w listed level
  have deep := deepest_lt_tierIn once first
  by_cases left : w ∈ strandedIds nodes edges
  · rw [eq_of_tierIn_eq distinct left second level]
  · have shallow := tierIn_le_deepest_succ once listed left
    change tierIn (readingTiers nodes edges) w ≤ _ at shallow
    change _ < tierIn (readingTiers nodes edges) u at deep
    omega

variable (numbers : ∀ n ∈ nodes, n.position.IsNumber) (few : nodes.length ≤ limit)

include numbers few

theorem arrange_horizontal_again (columned : Columned nodes edges) :
    arrange .horizontal (arrange .horizontal nodes edges) edges =
      arrange .horizontal nodes edges := by
  have once := readingIds_nodup distinct
  refine arrange_again_of_pairwise distinct numbers few .horizontal ?_
  refine (pairwise_stranded once _).imp_of_mem fun {a b} first second less => ?_
  have listed := mem_readingIds_of_stranded second
  rcases (columned_iff distinct).mp columned with alone | lane
  · rw [alone a first b second] at less
    exact absurd less (Nat.lt_irrefl _)
  · rw [placed_horizontal, placed_horizontal, lane a first, lane b second]
    exact rank_cell_lt (tierIn_readingTiers_le distinct few listed) (Nat.zero_le _)
      (Or.inr ⟨rfl, less⟩)

/-- A layout in columns that changes nothing when it is made again has kept the tiers. -/
theorem tierIn_of_again (again : arrange .horizontal (arrange .horizontal nodes edges) edges =
    arrange .horizontal nodes edges) {id : String} (listed : id ∈ readingIds nodes) :
    tierIn (readingTiers (arrange .horizontal nodes edges) edges) id =
      tierIn (readingTiers nodes edges) id := by
  have laidNumbers : ∀ n ∈ arrange .horizontal nodes edges, n.position.IsNumber :=
    isNumber_arrange distinct numbers few .horizontal
  have laidDistinct : ((arrange .horizontal nodes edges).map Node.id).Nodup := by
    rwa [ids_arrange]
  have laidFew : (arrange .horizontal nodes edges).length ≤ limit := by
    rwa [arrange, List.length_map]
  have listed' : id ∈ readingIds (arrange .horizontal nodes edges) :=
    (readingIds_arrange_perm .horizontal).mem_iff.mpr listed
  obtain ⟨n, member, rfl⟩ := List.mem_map.mp ((readingIds_perm _).mem_iff.mp listed')
  have first := position_arrange numbers .horizontal member
  have second := position_arrange laidNumbers .horizontal (again.symm ▸ member)
  rw [second, placed_horizontal, placed_horizontal] at first
  have column := congrArg (fun p : Position => p.x.toInt) first
  rw [toInt_cell_x (tierIn_readingTiers_le laidDistinct laidFew listed'),
    toInt_cell_x (tierIn_readingTiers_le distinct few listed), Option.some_inj] at column
  omega

theorem strandedIds_of_again (again : arrange .horizontal (arrange .horizontal nodes edges) edges =
    arrange .horizontal nodes edges) :
    strandedIds (arrange .horizontal nodes edges) edges = strandedIds nodes edges := by
  have once := readingIds_nodup distinct
  have same : (readingIds (arrange .horizontal nodes edges)).Perm (readingIds nodes) :=
    readingIds_arrange_perm .horizontal
  refine eq_of_perm_of_lt ?_ (pairwise_stranded once (edges.map Edge.pair))
    (stranded_perm once same.symm _).symm
  have kept : ∀ v ∈ strandedIds (arrange .horizontal nodes edges) edges,
      tierIn (readingTiers (arrange .horizontal nodes edges) edges) v =
        tierIn (readingTiers nodes edges) v := fun v member =>
    tierIn_of_again distinct numbers few again
      (same.mem_iff.mp (mem_readingIds_of_stranded member))
  refine (pairwise_stranded (same.nodup_iff.mpr once) _).imp_of_mem fun first second less => ?_
  change tierIn (readingTiers _ edges) _ < tierIn (readingTiers _ edges) _ at less
  rw [kept _ first, kept _ second] at less
  exact less.le

theorem columned_of_again (again : arrange .horizontal (arrange .horizontal nodes edges) edges =
    arrange .horizontal nodes edges) : Columned nodes edges := by
  have tiered := pairwise_stranded (readingIds_nodup distinct) (edges.map Edge.pair)
  have ordered : (strandedIds nodes edges).Pairwise fun a b =>
      (placed .horizontal (readingTiers nodes edges) (readingIds nodes) a).rank ≤
        (placed .horizontal (readingTiers nodes edges) (readingIds nodes) b).rank := by
    rw [← strandedIds_of_again distinct numbers few again]
    exact (pairwise_readingIds_arrange distinct numbers few .horizontal).sublist
      List.filter_sublist
  rw [columned_iff distinct]
  by_contra uneven
  push Not at uneven
  obtain ⟨⟨a, leftA, b, leftB, differ⟩, w, leftW, lane⟩ := uneven
  obtain ⟨v, leftV, other⟩ : ∃ v ∈ strandedIds nodes edges, v ≠ w := by
    by_cases same : a = w
    · exact ⟨b, leftB, fun equal => differ (same.trans equal.symm)⟩
    · exact ⟨a, leftA, same⟩
  rcases Nat.lt_or_gt_of_ne fun level => other (eq_of_tierIn_eq distinct leftV leftW level) with
    above | below
  · exact lane (laneOf_of_below distinct leftV leftW above)
  · -- the other one stands in the first row, so it is read before `w`
    have le := rel_of_lt (tiered.imp le_of_lt) ordered leftW leftV below
    rw [placed_horizontal, placed_horizontal, laneOf_of_below distinct leftW leftV below] at le
    have inRows : laneOf (readingTiers nodes edges) (readingIds nodes) w ≤ limit :=
      (laneOf_lt (mem_readingIds_of_stranded leftW)).le.trans
        ((length_readingIds nodes).trans_le few)
    exact absurd le (not_le_of_gt (rank_cell_lt
      (tierIn_readingTiers_le distinct few (mem_readingIds_of_stranded leftW)) inRows
      (Or.inl (Nat.pos_of_ne_zero lane))))

end Columns

section Naming

variable {nodes : List Node} {edges : List Edge}

/-- Made again, a layout from top to bottom or on a grid changes nothing, and one in columns
changes nothing exactly if the nodes that are cut off stand first in their columns or are one. -/
theorem arrangeBy_again (distinct : (nodes.map Node.id).Nodup)
    (numbers : ∀ n ∈ nodes, n.position.IsNumber) (few : nodes.length < 2 ^ 40)
    (mode : LayoutMode) :
    ∃ laid, arrangeBy (.string mode.name) nodes edges = .ok laid ∧
      (arrangeBy (.string mode.name) laid edges = .ok laid ↔
        (mode = .horizontal → Columned nodes edges)) := by
  refine ⟨arrange mode nodes edges, arrangeBy_name .., ?_⟩
  rw [arrangeBy_name, Except.ok.injEq]
  by_cases sideways : mode = .horizontal
  · subst sideways
    constructor
    · intro again _
      exact columned_of_again distinct numbers few.le again
    · intro columned
      exact arrange_horizontal_again distinct numbers few.le (columned rfl)
  · exact iff_of_true (arrange_again distinct numbers few.le mode sideways) fun same =>
      absurd same sideways

/-- A cycle over three nodes that is entered from a fourth one. -/
def swingingEdges : List Edge :=
  [⟨"1", "s", "e"⟩, ⟨"2", "e", "a"⟩, ⟨"3", "a", "b"⟩, ⟨"4", "b", "e"⟩]

def steady : List Node :=
  [⟨"a", .user, "A", [], .origin⟩, ⟨"s", .user, "S", [], .origin⟩, ⟨"e", .user, "E", [], .origin⟩,
    ⟨"b", .user, "B", [], .origin⟩]

theorem arrangeBy_again_steady :
    ∃ laid, arrangeBy (.string "horizontal") steady swingingEdges = .ok laid ∧
      arrangeBy (.string "horizontal") laid swingingEdges = .ok laid := by
  have distinct : (steady.map Node.id).Nodup := by decide
  have together : ∀ n ∈ steady, n.position = .origin := by decide +kernel
  obtain ⟨laid, drawn, again⟩ :=
    arrangeBy_again distinct (isNumber_of_origin together) (by decide) .horizontal
  refine ⟨laid, drawn, again.mpr fun _ => (columned_iff distinct).mpr (Or.inr ?_)⟩
  rw [strandedIds, readingTiers, readingIds_of_origin together]
  decide

def swinging : List Node :=
  [⟨"s", .user, "S", [], .origin⟩, ⟨"e", .user, "E", [], .origin⟩, ⟨"a", .user, "A", [], .origin⟩,
    ⟨"b", .user, "B", [], .origin⟩]

/-- The first of the nodes that are cut off stands below the node that is entered, so that the
layout made again takes the other one to be the first. -/
theorem arrangeBy_swinging :
    (swinging.map Node.id).Nodup ∧ (∀ n ∈ swinging, n.position.IsNumber) ∧
      ∃ laid again, arrangeBy (.string "horizontal") swinging swingingEdges = .ok laid ∧
        arrangeBy (.string "horizontal") laid swingingEdges = .ok again ∧ again ≠ laid := by
  have distinct : (swinging.map Node.id).Nodup := by decide
  have together : ∀ n ∈ swinging, n.position = .origin := by decide +kernel
  have numbers := isNumber_of_origin together
  refine ⟨distinct, numbers, _, _, arrangeBy_name .horizontal _ _,
    arrangeBy_name .horizontal _ _, fun again => ?_⟩
  have columned := columned_of_again distinct numbers (by decide) again
  rw [columned_iff distinct, strandedIds, readingTiers, readingIds_of_origin together] at columned
  revert columned
  decide

end Naming

end Canvas

end PromptCanvas
