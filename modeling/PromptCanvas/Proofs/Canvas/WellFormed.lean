import PromptCanvas.Proofs.Canvas.Anonymous

/-! # Well-formed canvases

`Canvas.WellFormed`: no two nodes share an identifier, every edge joins two
different nodes of the canvas, the selection is one of its nodes, and every node
has a list whose items are named and have one of the three levels.  Completing a
well-formed sketch gives a well-formed canvas (`Sketch.WellFormed.complete`); the
drawing of a valid graph is such a sketch (`Valid.wellFormed_layOut`), and so is
the canvas that a new workspace opens on (`wellFormed_initial`). -/

set_option autoImplicit false

namespace PromptCanvas

namespace Canvas

section Wiring

/-- Edges and a selection that fit the identifiers of the nodes. -/
structure Wired (ids : List String) (edges : List Edge) (selected : Option String) : Prop where
  distinct : ids.Nodup
  closed : ∀ e ∈ edges, e.source ∈ ids ∧ e.target ∈ ids
  loopless : ∀ e ∈ edges, e.source ≠ e.target
  chosen : ∀ id, selected = some id → id ∈ ids

variable {ids : List String} {edges : List Edge} {selected : Option String}

theorem wired_nil : Wired [] [] none := by
  constructor
  case distinct => exact List.nodup_nil
  case closed => simp
  case loopless => simp
  case chosen => simp

theorem Wired.select (wired : Wired ids edges selected) {chosen : Option String}
    (listed : ∀ id, chosen = some id → id ∈ ids) : Wired ids edges chosen :=
  { wired with chosen := listed }

theorem Wired.append (wired : Wired ids edges selected) {id : String} (fresh : id ∉ ids) :
    Wired (ids ++ [id]) edges (some id) := by
  constructor
  case distinct =>
    rw [List.nodup_append]
    refine ⟨wired.distinct, by simp, ?_⟩
    intro a member b last same
    rw [List.mem_singleton] at last
    exact fresh (last ▸ same ▸ member)
  case closed =>
    intro e member
    obtain ⟨source, target⟩ := wired.closed e member
    exact ⟨List.mem_append_left _ source, List.mem_append_left _ target⟩
  case loopless => exact wired.loopless
  case chosen =>
    intro chosen same
    cases same
    simp

theorem Wired.without (wired : Wired ids edges selected) (id : String) :
    Wired (ids.filter fun other => other != id)
      (edges.filter fun e => e.source != id && e.target != id) none := by
  constructor
  case distinct => exact wired.distinct.filter _
  case closed =>
    intro e member
    rw [List.mem_filter, Bool.and_eq_true] at member
    obtain ⟨source, target⟩ := wired.closed e member.1
    exact ⟨List.mem_filter.mpr ⟨source, member.2.1⟩, List.mem_filter.mpr ⟨target, member.2.2⟩⟩
  case loopless =>
    intro e member
    exact wired.loopless e (List.mem_filter.mp member).1
  case chosen =>
    intro chosen same
    cases same

theorem Wired.connect (wired : Wired ids edges selected) {e : Edge} (source : e.source ∈ ids)
    (target : e.target ∈ ids) (different : e.source ≠ e.target) :
    Wired ids (edges ++ [e]) selected := by
  constructor
  case distinct => exact wired.distinct
  case closed =>
    intro other member
    rcases List.mem_append.mp member with old | new
    · exact wired.closed other old
    · rw [List.mem_singleton.mp new]
      exact ⟨source, target⟩
  case loopless =>
    intro other member
    rcases List.mem_append.mp member with old | new
    · exact wired.loopless other old
    · rw [List.mem_singleton.mp new]
      exact different
  case chosen => exact wired.chosen

end Wiring

section Canvases

def ids (c : Canvas) : List String := c.nodes.map Node.id

/-- A list that is not empty and whose items are named and on one of the three levels. -/
def Listed (items : List Item) : Prop :=
  items ≠ [] ∧ ∀ i ∈ items, i.id ≠ "" ∧ 1 ≤ i.level.toNat ∧ i.level.toNat ≤ 3

structure WellFormed (c : Canvas) : Prop where
  wired : Wired c.ids c.edges c.selected
  listed : ∀ n ∈ c.nodes, Listed n.items

theorem wellFormed_empty : empty.WellFormed := ⟨wired_nil, by simp [empty]⟩

theorem find?_mem {c : Canvas} {id : String} {n : Node} (found : c.find? id = some n) :
    n ∈ c.nodes ∧ n.id = id :=
  ⟨List.mem_of_find?_eq_some found, by simpa using List.find?_some found⟩

theorem mem_ids_of_find? {c : Canvas} {id : String} {n : Node} (found : c.find? id = some n) :
    id ∈ c.ids := by
  obtain ⟨member, rfl⟩ := find?_mem found
  exact List.mem_map_of_mem member

theorem WellFormed.withNodes {c : Canvas} (wellFormed : c.WellFormed) {nodes : List Node}
    (sameIds : nodes.map Node.id = c.ids) (listed : ∀ n ∈ nodes, Listed n.items) :
    WellFormed { c with nodes := nodes } := by
  constructor
  case wired =>
    rw [ids]
    dsimp only
    rw [sameIds]
    exact wellFormed.wired
  case listed => exact listed

end Canvases

section Completion

theorem itemId_ne_empty (n : Nat) : IdSupply.itemId n ≠ "" := by
  intro same
  have texts := congrArg String.toList same
  rw [IdSupply.itemId, String.toList_ofList] at texts
  cases texts

theorem level_bounds (level : Level) : 1 ≤ level.toNat ∧ level.toNat ≤ 3 := by
  cases level <;> decide

theorem complete_id_ne_empty {d : Draft} (named : d.id ≠ some "") (ids : IdSupply) :
    (d.complete ids).1.id ≠ "" := by
  rw [Draft.complete]
  split
  · rename_i id given
    intro same
    exact named (given.trans (congrArg some same))
  · exact itemId_ne_empty ids.items

theorem completeAll_named (ds : List Draft) (named : ∀ d ∈ ds, d.id ≠ some "") :
    ∀ ids, ∀ i ∈ (Draft.completeAll ds ids).1, i.id ≠ "" := by
  induction ds with
  | nil =>
      intro ids i member
      cases member
  | cons d ds ih =>
      intro ids i member
      rcases List.mem_cons.mp member with rfl | later
      · exact complete_id_ne_empty (named d (by simp)) ids
      · exact ih (fun d member => named d (List.mem_cons_of_mem _ member)) _ i later

theorem listed_completeAll {ds : List Draft} (nonempty : ds ≠ [])
    (named : ∀ d ∈ ds, d.id ≠ some "") (ids : IdSupply) :
    Listed (Draft.completeAll ds ids).1 := by
  constructor
  · intro none
    have entries := map_toEntry_completeAll ds ids
    rw [none] at entries
    exact nonempty (List.map_eq_nil_iff.mp entries.symm)
  · intro i member
    exact ⟨completeAll_named ds named ids i member, level_bounds i.level⟩

theorem drafts_ne_nil (items : List Json) (fallback : String) :
    Outline.drafts items fallback ≠ [] := by
  cases items with
  | nil =>
      rw [Outline.drafts, ne_eq, List.map_eq_nil_iff]
      exact Outline.read_ne_nil fallback
  | cons j js => exact List.cons_ne_nil _ _

theorem named_draft (e : Entry) : e.draft.id ≠ some "" := by
  intro same
  cases same

theorem named_ofJson (j : Json) : (Draft.ofJson j).id ≠ some "" := by
  unfold Draft.ofJson
  split
  · intro same
    cases same
  · dsimp only
    split
    · split
      · intro same
        cases same
      · rename_i solid
        intro same
        rw [Option.some.inj same] at solid
        exact solid rfl
    · intro same
      cases same
  · exact named_draft Entry.blank

theorem named_drafts (items : List Json) (fallback : String) :
    ∀ d ∈ Outline.drafts items fallback, d.id ≠ some "" := by
  cases items with
  | nil =>
      rw [Outline.drafts, List.forall_mem_map]
      exact fun e _ => named_draft e
  | cons j js =>
      have every : ∀ d ∈ (j :: js).map Draft.ofJson, d.id ≠ some "" :=
        List.forall_mem_map.mpr fun k _ => named_ofJson k
      exact every

theorem listed_blank (ids : IdSupply) : Listed (Draft.completeAll [Entry.blank.draft] ids).1 :=
  listed_completeAll (List.cons_ne_nil _ _)
    (List.forall_mem_singleton.mpr (named_draft Entry.blank)) ids

theorem listed_drafts (items : List Json) (fallback : String) (ids : IdSupply) :
    Listed (Draft.completeAll (Outline.drafts items fallback) ids).1 :=
  listed_completeAll (drafts_ne_nil items fallback) (named_drafts items fallback) ids

end Completion

section Sketches

structure Sketch.WellFormed (s : Sketch) : Prop where
  wired : Wired (s.nodes.map NodeDraft.id) s.edges s.selected
  nonempty : ∀ d ∈ s.nodes, d.items ≠ []
  named : ∀ d ∈ s.nodes, ∀ i ∈ d.items, i.id ≠ some ""

theorem ids_completeNodes (ds : List NodeDraft) :
    ∀ ids, (completeNodes ds ids).1.map Node.id = ds.map NodeDraft.id := by
  induction ds with
  | nil => intro ids; rfl
  | cons d ds ih =>
      intro ids
      simp only [completeNodes, List.map_cons, ih]
      rfl

theorem listed_completeNodes (ds : List NodeDraft) (nonempty : ∀ d ∈ ds, d.items ≠ [])
    (named : ∀ d ∈ ds, ∀ i ∈ d.items, i.id ≠ some "") :
    ∀ ids, ∀ n ∈ (completeNodes ds ids).1, Listed n.items := by
  induction ds with
  | nil =>
      intro ids n member
      cases member
  | cons d ds ih =>
      intro ids n member
      rcases List.mem_cons.mp member with rfl | later
      · exact listed_completeAll (nonempty d (by simp)) (named d (by simp)) ids
      · exact ih (fun d member => nonempty d (List.mem_cons_of_mem _ member))
          (fun d member => named d (List.mem_cons_of_mem _ member)) _ n later

theorem Sketch.WellFormed.complete {s : Sketch} (wellFormed : s.WellFormed) (ids : IdSupply) :
    (s.complete ids).1.WellFormed := by
  constructor
  case wired =>
    have sameIds : (s.complete ids).1.ids = s.nodes.map NodeDraft.id :=
      ids_completeNodes s.nodes ids
    rw [sameIds]
    exact wellFormed.wired
  case listed => exact listed_completeNodes s.nodes wellFormed.nonempty wellFormed.named ids

theorem wellFormed_initial : initial.WellFormed := by
  constructor
  case wired =>
    constructor
    case distinct => decide
    case closed => decide
    case loopless => decide
    case chosen =>
      intro id same
      cases same
      decide
  case nonempty => decide
  case named => decide

end Sketches

end Canvas

namespace Graph

section Drawings

variable {g : Graph}

theorem ids_layOut (distinct : g.ids.Nodup) :
    g.layOut.nodes.map Canvas.NodeDraft.id = g.drawnIds := by
  rw [← ids_exported distinct, ids, Canvas.Sketch.exported, List.map_map]
  rfl

theorem mem_edges_layOut {e : Canvas.Edge} (member : e ∈ g.layOut.edges) :
    e.exported ∈ g.edges := by
  rw [← edges_exported g]
  exact List.mem_map_of_mem member

theorem mem_nodes_layOut {d : Canvas.NodeDraft} (member : d ∈ g.layOut.nodes) :
    ∃ n id, d = draftAt n (g.place id) := by
  rw [nodes_layOut, List.mem_filterMap] at member
  obtain ⟨id, -, drawn⟩ := member
  obtain ⟨n, -, rfl⟩ := Option.map_eq_some_iff.mp drawn
  exact ⟨n, id, rfl⟩

theorem items_layOut {d : Canvas.NodeDraft} (member : d ∈ g.layOut.nodes) :
    d.items ≠ [] ∧ ∀ i ∈ d.items, i.id ≠ some "" := by
  obtain ⟨n, id, rfl⟩ := mem_nodes_layOut member
  constructor
  · rw [draftAt, ne_eq, List.map_eq_nil_iff]
    exact Outline.read_ne_nil n.content
  · intro i inside
    obtain ⟨e, -, rfl⟩ := List.mem_map.mp inside
    exact Canvas.named_draft e

theorem chosen_layOut (g : Graph) {id : String} (same : g.layOut.selected = some id) :
    id ∈ g.layOut.nodes.map Canvas.NodeDraft.id := by
  rw [selected_layOut, ← List.head?_map] at same
  exact List.mem_of_head? same

theorem Valid.wellFormed_layOut (valid : g.Valid) : g.layOut.WellFormed := by
  have sameIds := ids_layOut valid.distinct
  have permuted := drawnIds_perm g
  constructor
  case wired =>
    rw [sameIds]
    constructor
    case distinct => exact permuted.nodup_iff.mpr valid.distinct
    case closed =>
      intro e member
      obtain ⟨source, target⟩ := valid.closed e.exported (mem_edges_layOut member)
      exact ⟨permuted.mem_iff.mpr source, permuted.mem_iff.mpr target⟩
    case loopless =>
      intro e member
      exact valid.loopless e.exported (mem_edges_layOut member)
    case chosen => exact fun id same => sameIds ▸ chosen_layOut g same
  case nonempty => exact fun d member => (items_layOut member).1
  case named => exact fun d member => (items_layOut member).2

end Drawings

end Graph

end PromptCanvas
