import PromptCanvas.Proofs.Canvas.Restoring
import PromptCanvas.Proofs.Graph.LaidOut

/-! # Identifiers of edges

The identifier of an edge is spelled from its ends, with its place behind them if it was drawn
with a graph.  Dashes part them, and identifiers of nodes may hold dashes too, so two edges can
come to one identifier; but then an end of one of them goes on after an end with a dash
(`Edge.Joined.continues`).  `Keyed`: how far the identifiers of a list of edges tell them apart. -/

set_option autoImplicit false

namespace PromptCanvas.Canvas

section Spellings

def Continues (s t : String) : Prop := s.toList ++ ['-'] <+: t.toList

instance (s t : String) : Decidable (Continues s t) :=
  inferInstanceAs (Decidable (s.toList ++ ['-'] <+: t.toList))

/-- Texts that go on after a dash are cut there alike, unless one of the first parts goes on with
a dash after the other. -/
theorem cut_dash {front others cs ds : List Char}
    (same : front ++ '-' :: cs = others ++ '-' :: ds) :
    front = others ∧ cs = ds ∨ front ++ ['-'] <+: others ∨ others ++ ['-'] <+: front := by
  rcases List.append_eq_append_iff.mp same with ⟨rest, rfl, split⟩ | ⟨rest, rfl, split⟩
  · cases rest with
    | nil => exact .inl ⟨(List.append_nil front).symm, (List.cons.inj split).2⟩
    | cons c rest =>
        obtain ⟨rfl, -⟩ := List.cons.inj split
        exact .inr (.inl ⟨rest, List.append_assoc ..⟩)
  · cases rest with
    | nil => exact .inl ⟨List.append_nil others, (List.cons.inj split).2.symm⟩
    | cons c rest =>
        obtain ⟨rfl, -⟩ := List.cons.inj split
        exact .inr (.inr ⟨rest, List.append_assoc ..⟩)

end Spellings

namespace Edge

/-- The identifier of an edge that connects two nodes of a canvas. -/
def Joined (e : Edge) : Prop := e.id = s!"e-{e.source}-{e.target}"

/-- The identifier of an edge that was drawn with a graph. -/
def Drawn (e : Edge) : Prop := ∃ index : Nat, e.id = s!"e-{e.source}-{e.target}-{index}"

section Collisions

variable {e f : Edge}

theorem Joined.toList_id (joined : e.Joined) :
    e.id.toList = 'e' :: '-' :: (e.source.toList ++ '-' :: e.target.toList) := by
  rw [joined]
  simp [toString]

theorem Drawn.toList_id (drawn : e.Drawn) :
    ∃ digits, e.id.toList =
      'e' :: '-' :: (e.source.toList ++ '-' :: (e.target.toList ++ '-' :: digits)) := by
  obtain ⟨index, same⟩ := drawn
  refine ⟨Nat.toDigits 10 index, ?_⟩
  rw [same]
  simp [toString, Nat.repr]

def ends (e : Edge) : List String := [e.source, e.target]

/-- An edge shares its identifier with one that has other ends only if one of these ends
continues another one. -/
theorem Joined.continues (joined : e.Joined) (spelled : f.Joined ∨ f.Drawn)
    (same : e.id = f.id) (other : e.pair ≠ f.pair) :
    ∃ s ∈ e.ends ++ f.ends, ∃ t ∈ e.ends ++ f.ends, Continues s t := by
  obtain ⟨tail, written, cut⟩ : ∃ tail, f.id.toList =
      'e' :: '-' :: (f.source.toList ++ '-' :: (f.target.toList ++ tail)) ∧
        (tail = [] ∨ ∃ digits, tail = '-' :: digits) := by
    rcases spelled with joined | drawn
    · exact ⟨[], by rw [joined.toList_id, List.append_nil], .inl rfl⟩
    · obtain ⟨digits, written⟩ := drawn.toList_id
      exact ⟨'-' :: digits, written, .inr ⟨digits, rfl⟩⟩
  rw [← same, joined.toList_id, List.cons.injEq, List.cons.injEq] at written
  rcases cut_dash written.2.2 with ⟨sources, targets⟩ | further | further
  · rcases cut with rfl | ⟨digits, rfl⟩
    · rw [List.append_nil] at targets
      exact absurd (congrArg₂ Prod.mk (String.toList_inj.mp sources) (String.toList_inj.mp targets))
        other
    · refine ⟨f.target, by simp [ends], e.target, by simp [ends], digits, ?_⟩
      rw [targets, List.append_assoc]
      rfl
  · exact ⟨e.source, by simp [ends], f.source, by simp [ends], further⟩
  · exact ⟨f.source, by simp [ends], e.source, by simp [ends], further⟩

end Collisions

end Edge

/-- Every edge has an identifier of one of the two kinds, and edges that share theirs have
different ends and were not all drawn. -/
structure Keyed (edges : List Edge) : Prop where
  spelled : ∀ e ∈ edges, e.Joined ∨ e.Drawn
  apart : edges.Pairwise fun e f => e.id = f.id → e.pair ≠ f.pair ∧ (e.Joined ∨ f.Joined)

namespace Keyed

section Lists

variable {edges : List Edge}

theorem of_nodup (spelled : ∀ e ∈ edges, e.Joined ∨ e.Drawn)
    (distinct : (edges.map Edge.id).Nodup) : Keyed edges :=
  ⟨spelled, (List.pairwise_map.mp distinct).imp fun other same => absurd same other⟩

theorem initial : Keyed Canvas.initial.edges := by
  refine of_nodup ?_ (List.nodup_singleton _)
  intro e member
  rw [List.mem_singleton.mp member]
  exact .inl rfl

theorem layOut (g : Graph) : Keyed g.layOut.edges := by
  refine of_nodup ?_ (Graph.ids_edges_layOut_nodup g)
  intro e member
  rw [Graph.edges_layOut] at member
  obtain ⟨index, inside, rfl⟩ := List.mem_mapIdx.mp member
  exact .inr ⟨index, rfl⟩

theorem filter (keyed : Keyed edges) (p : Edge → Bool) : Keyed (edges.filter p) :=
  ⟨fun e member => keyed.spelled e (List.mem_filter.mp member).1, keyed.apart.filter p⟩

/-- An edge is added between nodes that no edge connects in its direction. -/
theorem append (keyed : Keyed edges) {e : Edge} (joined : e.Joined)
    (new : ∀ f ∈ edges, f.pair ≠ e.pair) : Keyed (edges ++ [e]) := by
  constructor
  case spelled =>
    intro f member
    rcases List.mem_append.mp member with old | last
    · exact keyed.spelled f old
    · rw [List.mem_singleton.mp last]
      exact .inl joined
  case apart =>
    rw [List.pairwise_append]
    refine ⟨keyed.apart, List.pairwise_singleton _ _, ?_⟩
    intro f old g last _
    rw [List.mem_singleton.mp last]
    exact ⟨new f old, .inr joined⟩

/-- Edges that share an identifier have an end that continues another one. -/
theorem continues (keyed : Keyed edges) : edges.Pairwise fun e f =>
    e.id = f.id → ∃ s ∈ e.ends ++ f.ends, ∃ t ∈ e.ends ++ f.ends, Continues s t := by
  refine keyed.apart.imp_of_mem ?_
  intro e f here there apart same
  obtain ⟨other, joined | joined⟩ := apart same
  · exact joined.continues (keyed.spelled f there) same other
  · obtain ⟨s, first, t, second, further⟩ :=
      joined.continues (keyed.spelled e here) same.symm other.symm
    exact ⟨s, List.perm_append_comm.mem_iff.mp first, t, List.perm_append_comm.mem_iff.mp second,
      further⟩

def Undashed (edges : List Edge) : Prop :=
  ∀ s ∈ edges.flatMap Edge.ends, ∀ t ∈ edges.flatMap Edge.ends, ¬ Continues s t

instance (edges : List Edge) : Decidable (Undashed edges) :=
  inferInstanceAs (Decidable (∀ s ∈ edges.flatMap Edge.ends,
    ∀ t ∈ edges.flatMap Edge.ends, ¬ Continues s t))

/-- Identifiers tell the edges of a drawing apart, and all edges whose ends do not go on after
each other. -/
theorem nodup (keyed : Keyed edges)
    (fit : (∀ e ∈ edges, ¬ e.Joined) ∨ Undashed edges) : (edges.map Edge.id).Nodup := by
  refine List.pairwise_map.mpr ?_
  rcases fit with drawn | undashed
  · refine keyed.apart.imp_of_mem fun {e f} here there apart same => ?_
    rcases (apart same).2 with joined | joined
    · exact drawn e here joined
    · exact drawn f there joined
  · refine keyed.continues.imp_of_mem fun {e f} here there continues same => ?_
    have listed : ∀ s ∈ e.ends ++ f.ends, s ∈ edges.flatMap Edge.ends := by
      intro s member
      rcases List.mem_append.mp member with first | second
      · exact List.mem_flatMap.mpr ⟨e, here, first⟩
      · exact List.mem_flatMap.mpr ⟨f, there, second⟩
    obtain ⟨s, first, t, second, further⟩ := continues same
    exact undashed s (listed s first) t (listed t second) further

end Lists

end Keyed

section Storing

/-- What a canvas was stored as is opened with its edges, if it is opened at all. -/
theorem edges_restore_toJson (c : Canvas) :
    (restore c.toJson).edges = c.edges ∨ (restore c.toJson).edges = initial.edges := by
  obtain ⟨nodes, edges, -⟩ := c.fields_toJson
  have readEdges : Checked.all ((c.edges.map Edge.toJson).map Edge.read) =
      .ok (c.edges.map id) := Checked.all_map_ok fun e _ => e.read_toJson
  rw [restore, sketchOf?, nodes, edges]
  simp only [readEdges, List.map_id]
  cases Checked.all ((c.nodes.map Node.toJson).map NodeDraft.read) with
  | ok drafts => exact .inl rfl
  | error e => exact .inr rfl

end Storing

end PromptCanvas.Canvas
