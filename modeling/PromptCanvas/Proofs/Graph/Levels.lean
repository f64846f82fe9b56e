import Mathlib.Order.Bounds.Basic
import PromptCanvas.Proofs.Graph.Tiers

/-! # The tiers of edges with cycles

The walk takes up the identifiers that no cycle reaches (`mem_settled_iff`).  `Levels`
says what the tiers are of all: an identifier that no cycle reaches stands by the longest
path to it, one that a cycle reaches stands below those of the former that lead to it,
and if none does it has a tier of its own below all of the former (`tiers_levels`). -/

set_option autoImplicit false

namespace PromptCanvas

open Relation (TransGen ReflTransGen)

section Cycles

/-- Nothing that leads to the identifier, itself included, leads back to itself. -/
def CycleFree (edges : List (String × String)) (v : String) : Prop :=
  ∀ u, ReflTransGen (Joins edges) u v → ¬ TransGen (Joins edges) u u

/-- An edge leads to the identifier from one that no cycle reaches. -/
def Entered (edges : List (String × String)) (v : String) : Prop :=
  ∃ u, Joins edges u v ∧ CycleFree edges u

variable {edges : List (String × String)}

noncomputable def leadingTo (edges : List (String × String)) (v : String) :
    List (String × String) :=
  open Classical in edges.filter fun e => ReflTransGen (Joins edges) e.2 v

theorem mem_leadingTo {v : String} {e : String × String} :
    e ∈ leadingTo edges v ↔ e ∈ edges ∧ ReflTransGen (Joins edges) e.2 v := by
  simp [leadingTo]

theorem CycleFree.acyclic_leadingTo {v : String} (free : CycleFree edges v) :
    Acyclic (leadingTo edges v) := by
  intro u cycle
  obtain ⟨_, _, last⟩ := TransGen.tail'_iff.mp cycle
  have path := (mem_leadingTo.mp last).2
  exact free u path (cycle.lift id fun _ _ edge => (mem_leadingTo.mp edge).1)

variable {ids : List String}

/-- The walk takes up an identifier exactly if no cycle reaches it. -/
theorem mem_settled_iff (distinct : ids.Nodup) (edges : List (String × String)) (v : String) :
    v ∈ settled ids edges ↔ v ∈ ids ∧ CycleFree (Sweep.known ids edges) v := by
  have step := mem_settled distinct edges
  have closed : ∀ e ∈ Sweep.known ids edges, e.1 ∈ ids ∧ e.2 ∈ ids :=
    fun e member => (Sweep.mem_known.mp member).2
  constructor
  · intro taken
    refine ⟨((step v).mp taken).1, fun u path => ?_⟩
    have before : u ∈ settled ids edges := by
      induction path using ReflTransGen.head_induction_on with
      | refl => exact taken
      | head edge _ ih => exact ((step _).mp ih).2 _ edge rfl
    exact (longest_tierOf distinct edges u before).not_cyclic
  · rintro ⟨listed, free⟩
    -- along the edges that lead on to `v` one can go back only so far
    have back := free.acyclic_leadingTo.wellFounded fun e member =>
      closed e (mem_leadingTo.mp member).1
    have all : ∀ w, w ∈ ids → ReflTransGen (Joins (Sweep.known ids edges)) w v →
        w ∈ settled ids edges := by
      intro w
      induction w using back.induction with
      | _ w ih =>
          intro listed path
          refine (step w).mpr ⟨listed, ?_⟩
          rintro ⟨u, _⟩ edge rfl
          exact ih u (mem_leadingTo.mpr ⟨edge, path⟩) (closed _ edge).1 (path.head edge)
    exact all v listed .refl

end Cycles

section Reaching

variable {ids : List String}

/-- The walk comes to what no cycle reaches and to what is entered from there. -/
theorem isSome_lookup_finish (distinct : ids.Nodup) (edges : List (String × String)) (v : String) :
    ((Sweep.finish ids edges).tiers.lookup v).isSome ↔
      v ∈ ids ∧ (CycleFree (Sweep.known ids edges) v ∨ Entered (Sweep.known ids edges) v) := by
  obtain ⟨walked, settling, _⟩ := Sweep.settling_finish distinct edges
  have taken := mem_settled_iff distinct edges
  constructor
  · intro given
    rcases (settling.reached v).mp given with ⟨listed, none⟩ | ⟨e, member, rfl⟩
    · have source : v ∈ settled ids edges := by
        refine (mem_settled distinct edges v).mpr ⟨listed, fun e member into => ?_⟩
        have := Sweep.indegree_pos.mpr ⟨e, member, into⟩
        omega
      exact ⟨listed, Or.inl ((taken v).mp source).2⟩
    · obtain ⟨edge, source⟩ := (settling.complete e).mp member
      exact ⟨(Sweep.mem_known.mp edge).2.2, Or.inr ⟨e.1, edge, ((taken e.1).mp source).2⟩⟩
  · rintro ⟨listed, free | ⟨u, edge, free⟩⟩
    · exact isSome_lookup_of_settled distinct ((taken v).mpr ⟨listed, free⟩)
    · have source := (taken u).mpr ⟨(Sweep.mem_known.mp edge).2.1, free⟩
      exact (settling.reached v).mpr
        (Or.inr ⟨(u, v), (settling.complete _).mpr ⟨edge, source⟩, rfl⟩)

/-- What is entered stands one tier below the deepest identifier that enters it. -/
theorem greatest_tierIn (distinct : ids.Nodup) {edges : List (String × String)} {v : String}
    (entered : Entered (Sweep.known ids edges) v) :
    IsGreatest
      {n | ∃ u, Joins (Sweep.known ids edges) u v ∧ CycleFree (Sweep.known ids edges) u ∧
        n = tierIn (tiers ids edges) u + 1}
      (tierIn (tiers ids edges) v) := by
  obtain ⟨walked, settling, _⟩ := Sweep.settling_finish distinct edges
  have taken := mem_settled_iff distinct edges
  have follows : ∀ u, Joins (Sweep.known ids edges) u v → CycleFree (Sweep.known ids edges) u →
      u ∈ settled ids edges ∧
        (Sweep.finish ids edges).tierOf u + 1 ≤ (Sweep.finish ids edges).tierOf v := by
    intro u edge clear
    have source := (taken u).mpr ⟨(Sweep.mem_known.mp edge).2.1, clear⟩
    exact ⟨source, settling.deeper (u, v) ((settling.complete _).mpr ⟨edge, source⟩)⟩
  obtain ⟨first, edge, clear⟩ := entered
  have below := (follows first edge clear).2
  have listed := (Sweep.mem_known.mp edge).2.2
  rw [tierIn_tiers ((isSome_lookup_finish distinct edges v).mpr
    ⟨listed, Or.inr ⟨first, edge, clear⟩⟩)]
  constructor
  · rcases settling.attained v with zero | ⟨e, member, rfl, next⟩
    · omega
    · obtain ⟨edge, source⟩ := (settling.complete e).mp member
      exact ⟨e.1, edge, ((taken e.1).mp source).2, by rw [tierIn_of_settled distinct source, next]⟩
  · rintro n ⟨u, edge, clear, rfl⟩
    obtain ⟨source, under⟩ := follows u edge clear
    rwa [tierIn_of_settled distinct source]

theorem greatest_deepest (distinct : ids.Nodup) (edges : List (String × String)) :
    IsGreatest
      (insert 0 {n | ∃ v ∈ ids, CycleFree (Sweep.known ids edges) v ∧
        n = tierIn (tiers ids edges) v})
      (Sweep.finish ids edges).deepest := by
  obtain ⟨walked, settling, _⟩ := Sweep.settling_finish distinct edges
  have taken := mem_settled_iff distinct edges
  constructor
  · rcases settling.deepest_attained with zero | ⟨v, source, attained⟩
    · exact Or.inl zero
    · obtain ⟨listed, clear⟩ := (taken v).mp source
      exact Or.inr ⟨v, listed, clear, by rw [tierIn_of_settled distinct source, attained]⟩
  · rintro n (rfl | ⟨v, listed, clear, rfl⟩)
    · exact Nat.zero_le _
    · have source := (taken v).mpr ⟨listed, clear⟩
      rw [tierIn_of_settled distinct source]
      exact settling.deepest_le v source

end Reaching

section Appending

theorem isSome_lookup_appendTiers (rest : List String) :
    ∀ (tier : Nat) (given : List (String × Nat)) (v : String),
      ((appendTiers rest tier given).lookup v).isSome ↔ v ∈ rest ∨ (given.lookup v).isSome := by
  induction rest with
  | nil => intro tier given v; simp [appendTiers]
  | cons id rest ih =>
      intro tier given v
      rw [appendTiers, ih, List.mem_cons, List.lookup_cons]
      by_cases here : v = id
      · simp [here]
      · simp [here, beq_false_of_ne here]

theorem map_appendTiers {rest : List String} (distinct : rest.Nodup) :
    ∀ (tier : Nat) (given : List (String × Nat)),
      rest.map (tierIn (appendTiers rest tier given)) = List.range' tier rest.length := by
  induction rest with
  | nil => intro tier given; rfl
  | cons id rest ih =>
      intro tier given
      obtain ⟨absent, distinct⟩ := List.nodup_cons.mp distinct
      have here : tierIn (appendTiers rest (tier + 1) ((id, tier) :: given)) id = tier := by
        rw [tierIn, lookup_appendTiers rest _ _ id absent, List.lookup_cons_self]
        rfl
      rw [appendTiers, List.map_cons, here, ih distinct, List.length_cons, List.range'_succ]

end Appending

section Levels

open Classical in
/-- How deep identifiers stand by the edges between them: where no cycle reaches, by the longest
path; where only an edge leads from there, one below the deepest such edge; the others one after
the other, below all that no cycle reaches. -/
structure Levels (ids : List String) (edges : List (String × String)) (level : String → Nat) :
    Prop where
  longest : ∀ v ∈ ids, CycleFree edges v → IsLongest edges v (level v)
  entered : ∀ v, Entered edges v →
    IsGreatest {n | ∃ u, Joins edges u v ∧ CycleFree edges u ∧ n = level u + 1} (level v)
  apart : ∃ deepest,
    IsGreatest (insert 0 {n | ∃ v ∈ ids, CycleFree edges v ∧ n = level v}) deepest ∧
      (ids.filter fun v => ¬ (CycleFree edges v ∨ Entered edges v)).map level =
        List.range' (deepest + 1)
          (ids.countP fun v => ¬ (CycleFree edges v ∨ Entered edges v))

variable {ids : List String}

theorem isSome_lookup_tiers (distinct : ids.Nodup) (edges : List (String × String)) (v : String) :
    ((tiers ids edges).lookup v).isSome ↔ v ∈ ids := by
  have given := isSome_lookup_finish distinct edges v
  rw [tiers, isSome_lookup_appendTiers, List.mem_filter]
  cases found : ((Sweep.finish ids edges).tiers.lookup v).isSome with
  | true => simpa [found] using (given.mp found).1
  | false => simp [← Option.not_isSome, found]

theorem levels_tiers (distinct : ids.Nodup) (edges : List (String × String)) :
    Levels ids (Sweep.known ids edges) (tierIn (tiers ids edges)) where
  longest := fun v listed free =>
    longest_tierIn distinct v ((mem_settled_iff distinct edges v).mpr ⟨listed, free⟩)
  entered := fun v => greatest_tierIn distinct
  apart := by
    classical
    refine ⟨_, greatest_deepest distinct edges, ?_⟩
    have rest : (ids.filter fun v => ((Sweep.finish ids edges).tiers.lookup v).isNone) =
        ids.filter fun v => ¬ (CycleFree (Sweep.known ids edges) v ∨
          Entered (Sweep.known ids edges) v) := by
      apply List.filter_congr
      intro v listed
      have given := isSome_lookup_finish distinct edges v
      rw [and_iff_right listed] at given
      rw [← Option.not_isSome, Bool.eq_iff_iff, Bool.not_eq_true', decide_eq_true_iff, ← given,
        Bool.not_eq_true]
    rw [List.countP_eq_length_filter, ← rest]
    exact map_appendTiers (distinct.filter _) _ _

/-- Exactly the listed identifiers have a tier, and the tiers are as the known edges make them:
without a cycle they depend on which edges there are only, and between identifiers that no
cycle reaches every edge leads further down. -/
theorem tiers_levels (distinct : ids.Nodup) (edges : List (String × String)) :
    (∀ v, ((tiers ids edges).lookup v).isSome ↔ v ∈ ids) ∧
      Levels ids (Sweep.known ids edges) (tierIn (tiers ids edges)) ∧
        (Acyclic (Sweep.known ids edges) → ∀ others more, ids.Perm others →
          (∀ e, e ∈ more ↔ e ∈ edges) → ∀ v,
            (tiers others more).lookup v = (tiers ids edges).lookup v) ∧
          ∀ u v, Joins (Sweep.known ids edges) u v → CycleFree (Sweep.known ids edges) u →
            CycleFree (Sweep.known ids edges) v →
              tierIn (tiers ids edges) u + 1 ≤ tierIn (tiers ids edges) v := by
  have assigned := isSome_lookup_tiers distinct edges
  have levels := levels_tiers distinct edges
  refine ⟨assigned, levels, ?_, ?_⟩
  · intro acyclic others more same joined v
    have distinctOthers := same.nodup_iff.mp distinct
    have assignedOthers := isSome_lookup_tiers distinctOthers more
    by_cases listed : v ∈ ids
    · have tier := tierIn_tiers_congr distinct same joined acyclic listed
      obtain ⟨m, first⟩ := Option.isSome_iff_exists.mp
        ((assignedOthers v).mpr (same.mem_iff.mp listed))
      obtain ⟨n, second⟩ := Option.isSome_iff_exists.mp ((assigned v).mpr listed)
      rw [tierIn, tierIn, first, second] at tier
      rw [first, second]
      exact congrArg some tier
    · have first := (assignedOthers v).not.mpr (same.mem_iff.not.mp listed)
      have second := (assigned v).not.mpr listed
      rw [Option.not_isSome_iff_eq_none] at first second
      rw [first, second]
  · intro u v edge free _
    exact (levels.entered v ⟨u, edge, free⟩).2 ⟨u, edge, free, rfl⟩

def looping : List (String × String) :=
  [("a", "b"), ("b", "c"), ("c", "b"), ("c", "d"), ("x", "a"), ("a", "b")]

/-- Four identifiers of which a cycle reaches three, and two edges given in another way. -/
theorem tiers_levels_looping :
    ((∀ v, ((tiers ["d", "a", "b", "c"] looping).lookup v).isSome ↔ v ∈ ["d", "a", "b", "c"]) ∧
      Levels ["d", "a", "b", "c"] (Sweep.known ["d", "a", "b", "c"] looping)
        (tierIn (tiers ["d", "a", "b", "c"] looping))) ∧
      ∀ v, (tiers ["c", "a", "b"] [("b", "c"), ("a", "b"), ("b", "c")]).lookup v =
        (tiers ["a", "b", "c"] [("a", "b"), ("b", "c")]).lookup v := by
  constructor
  · have distinct : ["d", "a", "b", "c"].Nodup := by decide
    obtain ⟨assigned, levels, -⟩ := tiers_levels distinct looping
    exact ⟨assigned, levels⟩
  · have distinct : ["a", "b", "c"].Nodup := by decide
    have acyclic : Acyclic (Sweep.known ["a", "b", "c"] [("a", "b"), ("b", "c")]) :=
      (length_settled_iff distinct _).mp (by decide)
    obtain ⟨-, -, same, -⟩ := tiers_levels distinct [("a", "b"), ("b", "c")]
    exact same acyclic _ _ (by decide) (by simp [or_comm])

example :
    ["d", "a", "b", "c"].map (tierIn (tiers ["d", "a", "b", "c"] looping)) = [1, 0, 1, 2] := by
  decide

end Levels

section Depth

variable {ids : List String}

theorem CycleFree.before {edges : List (String × String)} {u v : String}
    (free : CycleFree edges v) (edge : Joins edges u v) : CycleFree edges u :=
  fun w path => free w (path.tail edge)

theorem exists_longest {edges : List (String × String)}
    (closed : ∀ e ∈ edges, e.1 ∈ ids ∧ e.2 ∈ ids) {level : String → Nat}
    (longest : ∀ v ∈ ids, CycleFree edges v → IsLongest edges v (level v)) (n : Nat) :
    ∀ v ∈ ids, CycleFree edges v → n ≤ level v → ∃ u ∈ ids, CycleFree edges u ∧ level u = n := by
  suffices all : ∀ m, ∀ v ∈ ids, CycleFree edges v → level v = m → n ≤ m →
      ∃ u ∈ ids, CycleFree edges u ∧ level u = n from
    fun v listed free below => all _ v listed free rfl below
  intro m
  induction m with
  | zero =>
      intro v listed free here below
      exact ⟨v, listed, free, by omega⟩
  | succ m ih =>
      intro v listed free here below
      rcases Nat.lt_or_eq_of_le below with less | rfl
      · have greatest := longest v listed free
        rw [here] at greatest
        -- the node before on a longest path stands one level above
        obtain ⟨u, trail, edge⟩ : ∃ u, Trail edges m u ∧ Joins edges u v := by
          cases greatest.trail with
          | along trail edge => exact ⟨_, trail, edge⟩
        have known := (closed _ edge).1
        have above := longest u known (free.before edge)
        have least := above.bound m trail
        have most := greatest.bound _ (above.trail.along edge)
        exact ih u known (free.before edge) (by omega) (by omega)
      · exact ⟨v, listed, free, here⟩

/-- Without a cycle there are more identifiers than levels above any of them. -/
theorem tierIn_tiers_lt {edges : List (String × String)} (distinct : ids.Nodup)
    (acyclic : Acyclic (Sweep.known ids edges)) {v : String} (listed : v ∈ ids) :
    tierIn (tiers ids edges) v < ids.length := by
  have closed : ∀ e ∈ Sweep.known ids edges, e.1 ∈ ids ∧ e.2 ∈ ids :=
    fun e member => (Sweep.mem_known.mp member).2
  have free : ∀ v, CycleFree (Sweep.known ids edges) v := fun _ u _ => acyclic u
  have taken : List.range (tierIn (tiers ids edges) v + 1) ⊆ ids.map (tierIn (tiers ids edges)) := by
    intro n below
    obtain ⟨u, member, _, level⟩ := exists_longest closed (levels_tiers distinct edges).longest n v
      listed (free v) (Nat.lt_succ_iff.mp (List.mem_range.mp below))
    exact List.mem_map.mpr ⟨u, member, level⟩
  have count := List.nodup_range.length_le_of_subset taken
  rwa [List.length_range, List.length_map] at count

end Depth

end PromptCanvas
