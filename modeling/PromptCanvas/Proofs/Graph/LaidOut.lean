import PromptCanvas.Proofs.Canvas.Arranging
import PromptCanvas.Proofs.Canvas.Storage
import PromptCanvas.Proofs.Canvas.WellFormed
import PromptCanvas.Proofs.Graph.Chain
import PromptCanvas.Proofs.Graph.Typed
import PromptCanvas.Proofs.Text.Digits

/-! # The layout of a graph

`Graph.LaidOut`: a canvas that shows every node of a graph once, each row a depth of the graph,
and that the vertical layout leaves as it is.  Every graph that the check accepts is laid out
so (`ensure_laidOut`). -/

set_option autoImplicit false

namespace PromptCanvas

open Layout

namespace Canvas

section Completion

/-- Nodes are completed one by one, each from what the supply still holds. -/
theorem forall₂_completeNodes (ds : List NodeDraft) :
    ∀ ids, List.Forall₂ (fun n d => ∃ supply, n = (d.complete supply).1)
      (completeNodes ds ids).1 ds := by
  induction ds with
  | nil => intro ids; exact .nil
  | cons d ds ih =>
      intro ids
      exact .cons ⟨ids, rfl⟩ (ih (d.complete ids).2)

/-- A node of a canvas shows a node of a graph, its content read as a list. -/
structure Node.Shows (n : Node) (m : Graph.Node) : Prop where
  id : n.id = m.id
  role : n.role = m.role
  label : n.label = m.label
  items : ∃ supply, n.items = (Draft.completeAll (Outline.drafts [] m.content) supply).1

theorem shows_draftAt (m : Graph.Node) (position : Position) (supply : IdSupply) :
    ((Graph.draftAt m position).complete supply).1.Shows m where
  id := rfl
  role := rfl
  label := rfl
  items := ⟨supply, rfl⟩

end Completion

end Canvas

namespace Graph

section Edges

/-- The number at the end of an edge identifier tells the edges of a drawing apart. -/
theorem index_of_id_drawnEdge {e f : Edge} {i j : Nat}
    (same : (drawnEdge e i).id = (drawnEdge f j).id) : i = j := by
  -- read from its end, an identifier begins with digits up to a dash
  have spelled : ∀ (e : Edge) (i : Nat), (drawnEdge e i).id.toList.reverse =
      (Nat.toDigits 10 i).reverse ++ '-' :: (s!"e-{e.source}-{e.target}").toList.reverse := by
    intro e i
    simp [drawnEdge, toString, Nat.repr]
  have cut : ∀ (e : Edge) (i : Nat),
      (drawnEdge e i).id.toList.reverse.span Char.isDigit =
        ((Nat.toDigits 10 i).reverse, '-' :: (s!"e-{e.source}-{e.target}").toList.reverse) := by
    intro e i
    rw [spelled]
    refine Numeral.span_digits ?_ ?_
    · rw [List.all_reverse]
      exact Numeral.all_isDigit_toDigits i
    · intro c first
      cases first
      rfl
  have digits := cut e i
  rw [same, cut f j, Prod.mk.injEq, List.reverse_inj] at digits
  rw [← Numeral.natOf_toDigits i, ← digits.1, Numeral.natOf_toDigits]

theorem pairs_layOut (g : Graph) : g.layOut.edges.map Canvas.Edge.pair = g.pairs := by
  rw [← pairs_exported g, pairs, Canvas.Sketch.exported, List.map_map]
  rfl

theorem ids_edges_layOut_nodup (g : Graph) : (g.layOut.edges.map Canvas.Edge.id).Nodup := by
  rw [edges_layOut, List.nodup_iff_injective_getElem]
  intro i j same
  simp only [List.getElem_map, List.getElem_mapIdx] at same
  exact Fin.ext (index_of_id_drawnEdge same)

end Edges

section Nodes

variable {g : Graph}

theorem nodes_layOut_eq (distinct : g.ids.Nodup) :
    g.layOut.nodes = g.drawnNodes.map fun m => draftAt m (g.place m.id) := by
  rw [nodes_layOut, drawnNodes, List.map_filterMap]
  refine List.filterMap_congr fun id _ => ?_
  cases found : g.named? id with
  | none => rw [Option.map_none, Option.map_none]
  | some m =>
      obtain ⟨_, rfl⟩ := (named?_eq_some_iff distinct).mp found
      rw [Option.map_some, Option.map_some]

theorem Valid.nodes_layOut_linked (valid : g.Valid) (chain : g.pairs = linked g.ids) :
    g.layOut.nodes = g.nodes.map fun m => draftAt m (g.place m.id) := by
  rw [nodes_layOut_eq valid.distinct, drawnNodes, valid.drawnIds_linked chain,
    filterMap_named? valid.distinct]

end Nodes

section Places

variable {g : Graph}

def depth (g : Graph) (id : String) : Nat := tierIn (tiers g.ids g.pairs) id

theorem place_eq_placed (g : Graph) (id : String) :
    g.place id = placed .vertical (tiers g.ids g.pairs) g.ids id :=
  (placed_tiered (by decide) id).symm

theorem Valid.depth_lt (valid : g.Valid) {id : String} (listed : id ∈ g.ids) :
    g.depth id < g.nodes.length := by
  have deep := tierIn_tiers_lt valid.distinct valid.acyclic_known listed
  rwa [ids, List.length_map] at deep

variable (valid : g.Valid) (few : g.nodes.length ≤ limit)

include valid few

/-- The place of a node is given by its depth and the nodes of that depth before it. -/
theorem Valid.exists_lane {id : String} (listed : id ∈ g.ids) :
    ∃ k ≤ limit, (row (tiers g.ids g.pairs) g.ids (g.depth id))[k]? = some id ∧
      g.place id = cell k (g.depth id) := by
  have member : id ∈ row (tiers g.ids g.pairs) g.ids (g.depth id) := mem_row.mpr ⟨listed, rfl⟩
  obtain ⟨k, lane⟩ := List.getElem?_of_mem member
  have fewIds : g.ids.length ≤ limit := by rwa [ids, List.length_map]
  exact ⟨k, getElem?_row_le fewIds lane, lane, tierPosition_eq .vertical valid.distinct lane⟩

theorem Valid.isNumber_place {id : String} (listed : id ∈ g.ids) : (g.place id).IsNumber := by
  obtain ⟨k, inLanes, -, place⟩ := valid.exists_lane few listed
  rw [place]
  exact isNumber_cell inLanes ((valid.depth_lt listed).le.trans few)

theorem Valid.pairwise_drawnIds :
    g.drawnIds.Pairwise fun a b => (g.place a).rank < (g.place b).rank := by
  have shallow : ∀ id ∈ g.ids, g.depth id ≤ limit := fun id listed =>
    (valid.depth_lt listed).le.trans few
  refine (sortedBy_byTier _ _).pairwise (fun tier => ?_) fun a first b second less => ?_
  · have fewIds : g.ids.length ≤ limit := by rwa [ids, List.length_map]
    simp only [place_eq_placed]
    exact pairwise_row valid.distinct fewIds shallow .vertical tier
  · have listed := (drawnIds_perm g).mem_iff.mp second
    obtain ⟨k, -, -, place⟩ := valid.exists_lane few ((drawnIds_perm g).mem_iff.mp first)
    obtain ⟨k', inLanes, -, place'⟩ := valid.exists_lane few listed
    rw [place, place']
    exact rank_cell_lt inLanes (shallow b listed) (Or.inl less)

end Places

section Drawn

variable {g : Graph}

def shownNodes (g : Graph) (ids : IdSupply) : List Canvas.Node :=
  (Canvas.completeNodes g.layOut.nodes ids).1

variable (distinct : g.ids.Nodup) (supply : IdSupply)

include distinct

theorem ids_shownNodes : (g.shownNodes supply).map Canvas.Node.id = g.drawnIds := by
  rw [shownNodes, Canvas.ids_completeNodes, ids_layOut distinct]

theorem mem_ids_of_mem_shownNodes {n : Canvas.Node} (member : n ∈ g.shownNodes supply) :
    n.id ∈ g.ids := by
  have listed := List.mem_map_of_mem (f := Canvas.Node.id) member
  rw [ids_shownNodes distinct] at listed
  exact (drawnIds_perm g).mem_iff.mp listed

theorem forall₂_shownNodes :
    (∀ n ∈ g.shownNodes supply, n.position = g.place n.id) ∧
      List.Forall₂ Canvas.Node.Shows (g.shownNodes supply) g.drawnNodes := by
  rw [← List.forall₂_and_left]
  have completed := Canvas.forall₂_completeNodes g.layOut.nodes supply
  rw [nodes_layOut_eq distinct, List.forall₂_map_right_iff, ← nodes_layOut_eq distinct]
    at completed
  refine completed.imp fun n m shown => ?_
  obtain ⟨rest, rfl⟩ := shown
  exact ⟨rfl, Canvas.shows_draftAt m _ rest⟩

end Drawn

section Settled

variable {g : Graph} (valid : g.Valid) (few : g.nodes.length ≤ limit) (supply : IdSupply)

include valid few

theorem Valid.isNumber_shownNodes : ∀ n ∈ g.shownNodes supply, n.position.IsNumber := by
  intro n member
  rw [(forall₂_shownNodes valid.distinct supply).1 n member]
  exact valid.isNumber_place few (mem_ids_of_mem_shownNodes valid.distinct supply member)

theorem Valid.pairwise_shownNodes :
    (g.shownNodes supply).Pairwise fun a b => a.position.rank < b.position.rank := by
  have drawn := valid.pairwise_drawnIds few
  rw [← ids_shownNodes valid.distinct supply, List.pairwise_map] at drawn
  have placed := (forall₂_shownNodes valid.distinct supply).1
  exact drawn.imp_of_mem fun {a b} first second less => by
    rwa [placed a first, placed b second]

theorem Valid.readingIds_shownNodes : Canvas.readingIds (g.shownNodes supply) = g.drawnIds := by
  have read := Canvas.sortedBy_inReadingOrder (valid.isNumber_shownNodes few supply)
  have same := eq_of_perm_of_lt read.ordered (valid.pairwise_shownNodes few supply)
    (List.mergeSort_perm _ _)
  rw [Canvas.readingIds, same, ids_shownNodes valid.distinct]

/-- Arranged from top to bottom, the drawing of a graph stays as it is. -/
theorem Valid.arrange_shownNodes :
    Canvas.arrange .vertical (g.shownNodes supply) g.layOut.edges = g.shownNodes supply := by
  rw [Canvas.arrange_eq (valid.isNumber_shownNodes few supply), Canvas.readingTiers,
    valid.readingIds_shownNodes few, pairs_layOut]
  have same : ∀ n ∈ g.shownNodes supply,
      { n with position := placed .vertical (tiers g.drawnIds g.pairs) g.drawnIds n.id } = n := by
    intro n member
    have listed := mem_ids_of_mem_shownNodes valid.distinct supply member
    have place := placed_congr .vertical (drawnIds_perm g).symm (fun id => valid.tierIn_drawnIds)
      (sortedBy_byTier _ _).stable listed
    rw [place, ← place_eq_placed, ← (forall₂_shownNodes valid.distinct supply).1 n member]
  exact (List.map_congr_left same).trans (List.map_id _)

end Settled

section Layouts

/-- A canvas that shows every node of a graph once: each node in the row of its depth, the length
of the longest path to it, and there in the column of its place among the nodes of that depth.
It shows every edge in its turn, and the vertical layout leaves it as it is. -/
structure LaidOut (g : Graph) (depth : String → Nat) (c : Canvas) : Prop where
  longest : ∀ id ∈ g.ids, IsLongest g.pairs id (depth id)
  shown : ∃ nodes, nodes.Perm g.nodes ∧ List.Forall₂ Canvas.Node.Shows c.nodes nodes
  forward : ∀ e ∈ g.edges, c.ids.idxOf e.source < c.ids.idxOf e.target
  placed : ∀ n ∈ c.nodes, ∃ k : Nat, (g.ids.filter fun id => depth id = depth n.id)[k]? = some n.id ∧
    n.position.x.toInt = some (100 + 320 * (k : Int)) ∧
      n.position.y.toInt = some (100 + 220 * (depth n.id : Int))
  apart : c.nodes.Pairwise fun a b => a.position.Apart b.position
  dense : ∀ n ∈ c.nodes, ∀ level ≤ depth n.id, ∃ m ∈ c.nodes, depth m.id = level
  edges : c.edges.map Canvas.Edge.exported = g.edges
  named : (c.edges.map Canvas.Edge.id).Nodup
  settled : Canvas.arrangeBy (.string "vertical") c.nodes c.edges = .ok c.nodes

variable {g : Graph}

theorem Valid.exists_depth (valid : g.Valid) {id : String} (listed : id ∈ g.ids) {level : Nat}
    (above : level ≤ g.depth id) : ∃ other ∈ g.ids, g.depth other = level := by
  have closed : ∀ p ∈ g.pairs, p.1 ∈ g.ids ∧ p.2 ∈ g.ids := by
    intro p joined
    obtain ⟨e, member, rfl⟩ := List.mem_map.mp joined
    exact valid.closed e member
  obtain ⟨other, member, -, here⟩ := exists_longest closed
    (fun id listed _ => valid.longest_tierIn listed) level id listed
    (fun u _ => valid.acyclic u) above
  exact ⟨other, member, here⟩

theorem Valid.laidOut_layOut (valid : g.Valid) (few : g.nodes.length < limit) (supply : IdSupply) :
    LaidOut g g.depth (g.layOut.complete supply).1 := by
  have sameIds : (g.layOut.complete supply).1.ids = g.drawnIds :=
    ids_shownNodes valid.distinct supply
  have drawn : ∀ {id}, id ∈ g.drawnIds ↔ id ∈ g.ids := (drawnIds_perm g).mem_iff
  obtain ⟨placed, shown⟩ := forall₂_shownNodes valid.distinct supply
  have listed : ∀ n ∈ g.shownNodes supply, n.id ∈ g.ids := fun n =>
    mem_ids_of_mem_shownNodes valid.distinct supply
  constructor
  case longest => exact fun id => valid.longest_tierIn
  case shown => exact ⟨g.drawnNodes, drawnNodes_perm valid.distinct, shown⟩
  case forward =>
    intro e member
    rw [sameIds]
    have ends := valid.closed e member
    exact idxOf_lt_of_lt (sortedBy_byTier _ _).ordered (drawn.mpr ends.1) (drawn.mpr ends.2)
      (valid.tierIn_lt (List.mem_map_of_mem member))
  case placed =>
    intro n member
    obtain ⟨k, inLanes, lane, place⟩ := valid.exists_lane few.le (listed n member)
    have inRows := (valid.depth_lt (listed n member)).trans few
    rw [placed n member, place]
    exact ⟨k, lane, toInt_cell_x inLanes _, toInt_cell_y inRows.le _⟩
  case apart =>
    have numbers := valid.isNumber_shownNodes few.le supply
    exact (valid.pairwise_shownNodes few.le supply).imp_of_mem fun {a b} first second less =>
      Or.inl (Position.Precedes.of_rank_lt (numbers a first) (numbers b second) less)
  case dense =>
    intro n member level above
    obtain ⟨other, named, here⟩ := valid.exists_depth (listed n member) above
    rw [← drawn, ← sameIds] at named
    obtain ⟨m, shown, rfl⟩ := List.mem_map.mp named
    exact ⟨m, shown, here⟩
  case edges => exact edges_exported g
  case named => exact ids_edges_layOut_nodup g
  case settled =>
    exact (Canvas.arrangeBy_name .vertical _ _).trans
      (congrArg Except.ok (valid.arrange_shownNodes few.le supply))

/-- Whatever the check accepts is laid out by its depths. -/
theorem ensure_laidOut {j : Json} (accepted : ensure j = .ok g) (few : g.nodes.length < 2 ^ 40)
    (supply : IdSupply) : ∃ depth, LaidOut g depth (g.layOut.complete supply).1 :=
  ⟨g.depth, (valid_of_read (ensure_eq_ok_iff.mp accepted)).laidOut_layOut few supply⟩

def forked : Graph where
  nodes :=
    [⟨"d", .assistant, "D", "1. End"⟩, ⟨"b", .user, "B", "1. Left"⟩, ⟨"a", .system, "A", "1. Go"⟩,
      ⟨"c", .user, "C", "1. Right"⟩]
  edges := [⟨"b", "d"⟩, ⟨"a", "c"⟩, ⟨"a", "b"⟩, ⟨"c", "d"⟩]

theorem ensure_laidOut_forked :
    ensure forked.toJson = .ok forked ∧ forked.nodes.length < 2 ^ 40 ∧
      ∃ depth, LaidOut forked depth (forked.layOut.complete .start).1 := by
  have accepted : ensure forked.toJson = .ok forked := ensure_eq_ok_iff.mpr (by rfl)
  have few : forked.nodes.length < 2 ^ 40 := by decide
  exact ⟨accepted, few, ensure_laidOut accepted few .start⟩

end Layouts

end Graph

end PromptCanvas
