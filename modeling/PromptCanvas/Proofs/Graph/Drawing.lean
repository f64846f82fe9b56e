import PromptCanvas.Canvas.Layout
import PromptCanvas.Proofs.Graph.Valid
import PromptCanvas.Proofs.Order.StableSort
import PromptCanvas.Proofs.Outline.RoundTrip

/-! # Drawing an exported drawing

`Canvas.Sketch.exported` is the graph that a sketch exports.  The drawing of a
valid graph exports a valid graph (`Valid.exported_layOut`) whose drawing is the
same drawing (`Valid.layOut_exported`): the nodes keep their order because they
are sorted by tier already, their places because sorting keeps the order within a
tier, and their lists because reading a rendered list gives the list back. -/

set_option autoImplicit false

namespace PromptCanvas

section Exports

def Canvas.NodeDraft.exported (d : Canvas.NodeDraft) : Graph.Node :=
  ⟨d.id, d.role, d.label, Outline.render (d.items.map Draft.toEntry)⟩

def Canvas.Sketch.exported (s : Canvas.Sketch) : Graph :=
  ⟨s.nodes.map Canvas.NodeDraft.exported, s.edges.map Canvas.Edge.exported⟩

theorem Canvas.Sketch.eq_of_fields {s t : Canvas.Sketch} (nodes : s.nodes = t.nodes)
    (edges : s.edges = t.edges) (selected : s.selected = t.selected) : s = t := by
  cases s
  cases t
  simp_all

end Exports

namespace Graph

section Order

variable (given : List (String × Nat)) (ids : List String)

theorem byTier_perm : (byTier given ids).Perm ids := List.mergeSort_perm _ _

theorem sortedBy_byTier : SortedBy (tierIn given) ids (byTier given ids) :=
  sortedBy_mergeSort fun _ _ _ _ => rfl

end Order

section Names

def Node.redrawn (n : Node) : Node := { n with content := Outline.render (Outline.read n.content) }

theorem id_redrawn (n : Node) : n.redrawn.id = n.id := by
  rw [Node.redrawn]

theorem role_redrawn (n : Node) : n.redrawn.role = n.role := by
  rw [Node.redrawn]

theorem content_redrawn (n : Node) :
    n.redrawn.content = Outline.render (Outline.read n.content) := rfl

theorem exported_draftAt (n : Node) (position : Position) :
    (draftAt n position).exported = n.redrawn := by
  simp [draftAt, Canvas.NodeDraft.exported, Node.redrawn, Entry.draft, Function.comp_def]

theorem exported_drawnEdge (e : Edge) (index : Nat) : (drawnEdge e index).exported = e := rfl

/-- Without repeated identifiers, an identifier names the node that has it. -/
theorem named?_eq_some_iff {g : Graph} (distinct : g.ids.Nodup) {id : String} {n : Node} :
    g.named? id = some n ↔ n ∈ g.nodes ∧ n.id = id := by
  constructor
  · intro found
    exact ⟨List.mem_reverse.mp (List.mem_of_find?_eq_some found),
      by simpa using List.find?_some found⟩
  · rintro ⟨member, rfl⟩
    have some : (g.named? n.id).isSome := by
      rw [named?, List.find?_isSome]
      exact ⟨n, List.mem_reverse.mpr member, by simp⟩
    obtain ⟨m, found⟩ := Option.isSome_iff_exists.mp some
    have listed := List.mem_reverse.mp (List.mem_of_find?_eq_some found)
    have same : m.id = n.id := by simpa using List.find?_some found
    rw [found, List.inj_on_of_nodup_map distinct listed member same]

theorem exists_named? {g : Graph} (distinct : g.ids.Nodup) {id : String} (listed : id ∈ g.ids) :
    ∃ n, g.named? id = some n ∧ n ∈ g.nodes ∧ n.id = id := by
  obtain ⟨n, member, same⟩ := List.mem_map.mp listed
  exact ⟨n, (named?_eq_some_iff distinct).mpr ⟨member, same⟩, member, same⟩

end Names

section Drawings

variable {g : Graph}

def drawnIds (g : Graph) : List String := byTier (tiers g.ids g.pairs) g.ids

theorem drawnIds_perm (g : Graph) : g.drawnIds.Perm g.ids := byTier_perm _ _

def place (g : Graph) (id : String) : Position :=
  Layout.tierPosition .vertical (tiers g.ids g.pairs) g.ids id

theorem nodes_layOut (g : Graph) :
    g.layOut.nodes =
      g.drawnIds.filterMap fun id => (g.named? id).map fun n => draftAt n (g.place id) := rfl

theorem selected_layOut (g : Graph) :
    g.layOut.selected = g.layOut.nodes.head?.map Canvas.NodeDraft.id := rfl

theorem nodes_exported (g : Graph) :
    g.layOut.exported.nodes = g.drawnIds.filterMap fun id => (g.named? id).map Node.redrawn := by
  rw [Canvas.Sketch.exported, nodes_layOut, List.map_filterMap]
  simp [Function.comp_def, exported_draftAt]

def drawnNodes (g : Graph) : List Node := g.drawnIds.filterMap g.named?

theorem filterMap_named? (distinct : g.ids.Nodup) : g.ids.filterMap g.named? = g.nodes := by
  rw [ids, List.filterMap_map]
  refine (List.filterMap_congr fun n member => ?_).trans List.filterMap_some
  rw [Function.comp_apply, (named?_eq_some_iff distinct).mpr ⟨member, rfl⟩]

theorem drawnNodes_perm (distinct : g.ids.Nodup) : g.drawnNodes.Perm g.nodes := by
  have perm := (drawnIds_perm g).filterMap g.named?
  rwa [filterMap_named? distinct] at perm

theorem edges_layOut (g : Graph) :
    g.layOut.edges = g.edges.mapIdx fun index e => drawnEdge e index := rfl

theorem edges_exported (g : Graph) : g.layOut.exported.edges = g.edges := by
  rw [Canvas.Sketch.exported, edges_layOut]
  apply List.ext_getElem (by simp)
  intro i inside _
  rw [List.getElem_map, List.getElem_mapIdx, exported_drawnEdge]

theorem ids_exported (distinct : g.ids.Nodup) : g.layOut.exported.ids = g.drawnIds := by
  rw [ids, nodes_exported, List.map_filterMap]
  refine (List.filterMap_congr fun id member => ?_).trans List.filterMap_some
  obtain ⟨n, found, -, same⟩ := exists_named? distinct ((drawnIds_perm g).mem_iff.mp member)
  rw [found, Option.map_some, Option.map_some, id_redrawn, same]

theorem pairs_exported (g : Graph) : g.layOut.exported.pairs = g.pairs := by
  rw [pairs, edges_exported, pairs]

theorem mem_nodes_exported (distinct : g.ids.Nodup) {m : Node} :
    m ∈ g.layOut.exported.nodes ↔ ∃ n ∈ g.nodes, n.redrawn = m := by
  rw [nodes_exported, List.mem_filterMap]
  constructor
  · rintro ⟨id, -, drawn⟩
    obtain ⟨n, found, rfl⟩ := Option.map_eq_some_iff.mp drawn
    exact ⟨n, ((named?_eq_some_iff distinct).mp found).1, rfl⟩
  · rintro ⟨n, member, rfl⟩
    refine ⟨n.id, (drawnIds_perm g).mem_iff.mpr (List.mem_map_of_mem member), ?_⟩
    rw [(named?_eq_some_iff distinct).mpr ⟨member, rfl⟩]
    rfl

theorem Valid.exported_layOut (valid : g.Valid) : g.layOut.exported.Valid := by
  have sameIds := ids_exported valid.distinct
  have permuted := drawnIds_perm g
  have sameLength : g.layOut.exported.nodes.length = g.nodes.length := by
    have lengths := congrArg List.length sameIds
    rwa [ids, List.length_map, permuted.length_eq, ids, List.length_map] at lengths
  constructor
  case nonempty =>
    rw [ne_eq, ← List.length_eq_zero_iff, sameLength, List.length_eq_zero_iff]
    exact valid.nonempty
  case named =>
    intro m member
    obtain ⟨n, listed, rfl⟩ := (mem_nodes_exported valid.distinct).mp member
    rw [id_redrawn]
    exact valid.named n listed
  case exported =>
    intro m member
    obtain ⟨n, listed, rfl⟩ := (mem_nodes_exported valid.distinct).mp member
    rw [role_redrawn]
    exact valid.exported n listed
  case solid =>
    intro m member
    obtain ⟨n, listed, rfl⟩ := (mem_nodes_exported valid.distinct).mp member
    rw [content_redrawn]
    exact Outline.solid_render_read (valid.solid n listed)
  case distinct =>
    rw [sameIds]
    exact permuted.nodup_iff.mpr valid.distinct
  case closed =>
    rw [edges_exported, sameIds]
    intro e member
    exact (valid.closed e member).imp permuted.mem_iff.mpr permuted.mem_iff.mpr
  case loopless =>
    rw [edges_exported]
    exact valid.loopless
  case touched =>
    rw [edges_exported, sameLength]
    intro several m member
    obtain ⟨n, listed, rfl⟩ := (mem_nodes_exported valid.distinct).mp member
    rw [id_redrawn]
    exact valid.touched several n listed
  case acyclic =>
    rw [pairs_exported]
    exact valid.acyclic

end Drawings

section Again

variable {g : Graph}

theorem Valid.tierIn_drawnIds (valid : g.Valid) {id : String} (listed : id ∈ g.ids) :
    tierIn (tiers g.drawnIds g.pairs) id = tierIn (tiers g.ids g.pairs) id :=
  tierIn_tiers_perm valid.distinct (drawnIds_perm g).symm valid.acyclic_known listed

theorem Valid.tierIn_exported (valid : g.Valid) {id : String} (listed : id ∈ g.ids) :
    tierIn (tiers g.layOut.exported.ids g.layOut.exported.pairs) id =
      tierIn (tiers g.ids g.pairs) id := by
  rw [ids_exported valid.distinct, pairs_exported]
  exact valid.tierIn_drawnIds listed

theorem Valid.drawnIds_exported (valid : g.Valid) :
    g.layOut.exported.drawnIds = g.layOut.exported.ids := by
  rw [drawnIds, byTier]
  apply List.mergeSort_of_pairwise
  rw [ids_exported valid.distinct]
  apply (sortedBy_byTier (tiers g.ids g.pairs) g.ids).ordered.imp_of_mem
  intro a b first second le
  rw [decide_eq_true_iff, ← ids_exported valid.distinct,
    valid.tierIn_exported ((drawnIds_perm g).mem_iff.mp first),
    valid.tierIn_exported ((drawnIds_perm g).mem_iff.mp second)]
  exact le

theorem Valid.place_exported (valid : g.Valid) {id : String} (listed : id ∈ g.ids) :
    g.layOut.exported.place id = g.place id := by
  have sameTier := valid.tierIn_exported listed
  have lane : (g.layOut.exported.ids.filter fun other =>
      tierIn (tiers g.layOut.exported.ids g.layOut.exported.pairs) other ==
        tierIn (tiers g.layOut.exported.ids g.layOut.exported.pairs) id) =
      g.ids.filter fun other => tierIn (tiers g.ids g.pairs) other ==
        tierIn (tiers g.ids g.pairs) id := by
    have kept := (sortedBy_byTier (tiers g.ids g.pairs) g.ids).stable
      (tierIn (tiers g.ids g.pairs) id)
    change (g.drawnIds.filter _) = _ at kept
    simp only [beq_eq_decide, sameTier]
    rw [← kept, ← ids_exported valid.distinct]
    apply List.filter_congr
    intro other member
    rw [ids_exported valid.distinct] at member
    rw [valid.tierIn_exported ((drawnIds_perm g).mem_iff.mp member)]
  rw [place, place, Layout.tierPosition, Layout.tierPosition, Layout.laneOf, Layout.laneOf, lane,
    sameTier]

theorem Valid.draft_exported (valid : g.Valid) {id : String} (listed : id ∈ g.ids) :
    ((g.layOut.exported.named? id).map fun n => draftAt n (g.layOut.exported.place id)) =
      (g.named? id).map fun n => draftAt n (g.place id) := by
  obtain ⟨n, found, member, same⟩ := exists_named? valid.distinct listed
  have again : g.layOut.exported.named? id = some n.redrawn :=
    (named?_eq_some_iff valid.exported_layOut.distinct).mpr
      ⟨(mem_nodes_exported valid.distinct).mpr ⟨n, member, rfl⟩, (id_redrawn n).trans same⟩
  rw [found, again, Option.map_some, Option.map_some, valid.place_exported listed, draftAt, draftAt]
  simp [Node.redrawn, Outline.read_render_read (valid.solid n member)]

/-- The drawing of what a drawing exports is the drawing. -/
theorem Valid.layOut_exported (valid : g.Valid) : g.layOut.exported.layOut = g.layOut := by
  have nodes : g.layOut.exported.layOut.nodes = g.layOut.nodes := by
    rw [nodes_layOut g.layOut.exported, nodes_layOut g, valid.drawnIds_exported,
      ids_exported valid.distinct]
    exact List.filterMap_congr fun id member =>
      valid.draft_exported ((drawnIds_perm g).mem_iff.mp member)
  have edges : g.layOut.exported.layOut.edges = g.layOut.edges := by
    rw [edges_layOut g.layOut.exported, edges_exported, edges_layOut]
  have selected : g.layOut.exported.layOut.selected = g.layOut.selected := by
    rw [selected_layOut g.layOut.exported, nodes, selected_layOut]
  exact Canvas.Sketch.eq_of_fields nodes edges selected

end Again

end Graph

end PromptCanvas
