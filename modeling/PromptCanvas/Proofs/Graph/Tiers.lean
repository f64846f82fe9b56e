import Mathlib.Data.Fintype.EquivFin
import Mathlib.Data.Fintype.Sets
import Mathlib.Logic.Relation
import PromptCanvas.Proofs.Graph.Sweep

/-! # Cycles and longest paths

`length_settled_iff`: the walk takes up every identifier exactly if the edges have
no cycle.  `longest_tierIn`: the tier of an identifier that is taken up is the length
of the longest path to it; so the tiers of edges without a cycle do not depend on
the order in which identifiers and edges are given (`tierIn_tiers_congr`). -/

set_option autoImplicit false

namespace PromptCanvas

open Relation (TransGen)

section Paths

def Joins (edges : List (String × String)) (a b : String) : Prop := (a, b) ∈ edges

/-- No path along edges comes back to where it began. -/
def Acyclic (edges : List (String × String)) : Prop := ∀ v, ¬ TransGen (Joins edges) v v

/-- A path of `n` edges ends in `v`. -/
inductive Trail (edges : List (String × String)) : Nat → String → Prop where
  | here (v : String) : Trail edges 0 v
  | along {n : Nat} {u v : String} : Trail edges n u → (u, v) ∈ edges → Trail edges (n + 1) v

/-- The paths that end in `v` have at most `n` edges, and one of them has as many. -/
structure IsLongest (edges : List (String × String)) (v : String) (n : Nat) : Prop where
  trail : Trail edges n v
  bound : ∀ m, Trail edges m v → m ≤ n

variable {edges : List (String × String)}

theorem IsLongest.unique {v : String} {m n : Nat} (first : IsLongest edges v m)
    (second : IsLongest edges v n) : m = n :=
  Nat.le_antisymm (second.bound m first.trail) (first.bound n second.trail)

theorem Trail.mono {others : List (String × String)} (within : ∀ e ∈ edges, e ∈ others) {n : Nat}
    {v : String} (trail : Trail edges n v) : Trail others n v := by
  induction trail with
  | here v => exact .here v
  | along _ edge ih => exact ih.along (within _ edge)

theorem IsLongest.congr {others : List (String × String)} (same : ∀ e, e ∈ edges ↔ e ∈ others)
    {v : String} {n : Nat} (longest : IsLongest edges v n) : IsLongest others v n where
  trail := longest.trail.mono fun e => (same e).mp
  bound := fun m trail => longest.bound m (trail.mono fun e => (same e).mpr)

theorem Acyclic.mono {others : List (String × String)} (acyclic : Acyclic edges)
    (within : ∀ e ∈ others, e ∈ edges) : Acyclic others := fun v cycle =>
  acyclic v (cycle.lift id fun _ _ edge => within _ edge)

theorem Trail.further {n : Nat} {u v : String} (trail : Trail edges n u)
    (path : TransGen (Joins edges) u v) : ∃ m, n < m ∧ Trail edges m v := by
  induction path with
  | single edge => exact ⟨n + 1, Nat.lt_succ_self n, trail.along edge⟩
  | tail _ edge ih =>
      obtain ⟨m, longer, trail⟩ := ih
      exact ⟨m + 1, Nat.lt_succ_of_lt longer, trail.along edge⟩

theorem IsLongest.not_cyclic {v : String} {n : Nat} (longest : IsLongest edges v n) :
    ¬ TransGen (Joins edges) v v := by
  intro cycle
  obtain ⟨m, longer, trail⟩ := longest.trail.further cycle
  exact absurd (longest.bound m trail) (Nat.not_le_of_lt longer)

/-- Along edges between finitely many identifiers without a cycle one can go back only so far. -/
theorem Acyclic.wellFounded {ids : List String} (acyclic : Acyclic edges)
    (closed : ∀ e ∈ edges, e.1 ∈ ids ∧ e.2 ∈ ids) : WellFounded (Joins edges) := by
  let joins : { v // v ∈ ids } → { v // v ∈ ids } → Prop := fun a b => Joins edges a.1 b.1
  have lift : ∀ a b, TransGen joins a b → TransGen (Joins edges) a.1 b.1 :=
    TransGen.lift Subtype.val fun _ _ edge => edge
  have : IsTrans { v // v ∈ ids } (TransGen joins) := ⟨fun _ _ _ => TransGen.trans⟩
  have : Std.Irrefl (TransGen joins) := ⟨fun a path => acyclic a.1 (lift a a path)⟩
  have listed : WellFounded joins :=
    Subrelation.wf (fun edge => TransGen.single edge)
      (Finite.wellFounded_of_trans_of_irrefl (TransGen joins))
  have accessible : ∀ a : { v // v ∈ ids }, Acc (Joins edges) a.1 := by
    intro a
    induction a using listed.induction with
    | _ a ih =>
        apply Acc.intro _
        intro b edge
        exact ih ⟨b, (closed _ edge).1⟩ edge
  refine ⟨fun v => Acc.intro v fun u edge => ?_⟩
  exact accessible ⟨u, (closed _ edge).1⟩

end Paths

section Settled

variable {ids : List String}

theorem mem_settled (distinct : ids.Nodup) (edges : List (String × String)) (v : String) :
    v ∈ settled ids edges ↔
      v ∈ ids ∧ ∀ e ∈ Sweep.known ids edges, e.2 = v → e.1 ∈ settled ids edges := by
  obtain ⟨walked, settling, idle⟩ := Sweep.settling_finish distinct edges
  have taken := settling.taken v
  rw [idle, List.append_nil, settling.counted v, Sweep.entering_eq_indegree] at taken
  exact taken

theorem settled_nodup (distinct : ids.Nodup) (edges : List (String × String)) :
    (settled ids edges).Nodup := by
  obtain ⟨walked, settling, _⟩ := Sweep.settling_finish distinct edges
  exact (List.nodup_append.mp settling.nodup).1

/-- What is taken up has a longest path to it, whose length the walk has noted. -/
theorem longest_tierOf (distinct : ids.Nodup) (edges : List (String × String)) (v : String)
    (taken : v ∈ settled ids edges) :
    IsLongest (Sweep.known ids edges) v ((Sweep.finish ids edges).tierOf v) := by
  obtain ⟨walked, settling, _⟩ := Sweep.settling_finish distinct edges
  have follows : ∀ e ∈ Sweep.known ids edges, e.1 ∈ settled ids edges →
      (Sweep.finish ids edges).tierOf e.1 + 1 ≤ (Sweep.finish ids edges).tierOf e.2 :=
    fun e member source => settling.deeper e ((settling.complete e).mpr ⟨member, source⟩)
  have trail : ∀ n v, (Sweep.finish ids edges).tierOf v = n →
      Trail (Sweep.known ids edges) n v := by
    intro n
    induction n with
    | zero => intro v _; exact Trail.here v
    | succ n ih =>
        intro v tier
        rcases settling.attained v with zero | ⟨e, member, rfl, next⟩
        · omega
        · exact (ih e.1 (by omega)).along ((settling.complete e).mp member).1
  refine ⟨trail _ v rfl, fun m longer => ?_⟩
  induction longer with
  | here => exact Nat.zero_le _
  | @along n u v _ edge ih =>
      have source := ((mem_settled distinct edges v).mp taken).2 (u, v) edge rfl
      exact Nat.le_trans (Nat.succ_le_succ (ih source)) (follows (u, v) edge source)

/-- The walk takes up every identifier exactly if no path comes back to where it began. -/
theorem length_settled_iff (distinct : ids.Nodup) (edges : List (String × String)) :
    (settled ids edges).length = ids.length ↔ Acyclic (Sweep.known ids edges) := by
  have nodup := settled_nodup distinct edges
  have within : settled ids edges ⊆ ids :=
    fun v member => ((mem_settled distinct edges v).mp member).1
  constructor
  · intro full v cycle
    have listed : v ∈ ids := by
      obtain ⟨_, edge, _⟩ := TransGen.tail'_iff.mp cycle
      exact (Sweep.mem_known.mp ‹_›).2.2
    have taken : v ∈ settled ids edges :=
      ((nodup.subperm within).perm_of_length_le (Nat.le_of_eq full.symm)).mem_iff.mpr listed
    exact (longest_tierOf distinct edges v taken).not_cyclic cycle
  · intro acyclic
    have closed : ∀ e ∈ Sweep.known ids edges, e.1 ∈ ids ∧ e.2 ∈ ids :=
      fun e member => (Sweep.mem_known.mp member).2
    have all : ids ⊆ settled ids edges := by
      intro v
      induction v using (acyclic.wellFounded closed).induction with
      | _ v ih =>
          intro listed
          refine (mem_settled distinct edges v).mpr ⟨listed, ?_⟩
          rintro ⟨u, w⟩ edge rfl
          exact ih u edge (closed _ edge).1
    exact Nat.le_antisymm (nodup.length_le_of_subset within) (distinct.length_le_of_subset all)

end Settled

section Order

variable {ids : List String} {edges : List (String × String)}

theorem lookup_appendTiers (rest : List String) :
    ∀ (tier : Nat) (given : List (String × Nat)) (v : String), v ∉ rest →
      (appendTiers rest tier given).lookup v = given.lookup v := by
  induction rest with
  | nil => intro tier given v _; rfl
  | cons id rest ih =>
      intro tier given v absent
      rw [List.mem_cons, not_or] at absent
      rw [appendTiers, ih _ _ v absent.2, List.lookup_cons, beq_false_of_ne absent.1]

/-- An identifier that the walk came to has the tier that the walk gave it. -/
theorem tierIn_tiers {v : String} (given : ((Sweep.finish ids edges).tiers.lookup v).isSome) :
    tierIn (tiers ids edges) v = (Sweep.finish ids edges).tierOf v := by
  rw [tierIn, tiers, lookup_appendTiers, Sweep.tierOf]
  simp only [List.mem_filter, not_and, Option.isNone_iff_eq_none]
  intro _ none
  simp [none] at given

theorem isSome_lookup_of_settled (distinct : ids.Nodup) {v : String}
    (taken : v ∈ settled ids edges) : ((Sweep.finish ids edges).tiers.lookup v).isSome := by
  obtain ⟨walked, settling, _⟩ := Sweep.settling_finish distinct edges
  have full := (settling.taken v).mp (List.mem_append_left _ taken)
  apply (settling.reached v).mpr
  rcases Nat.eq_zero_or_pos (Sweep.indegree (Sweep.known ids edges) v) with none | some
  · exact Or.inl ⟨full.1, none⟩
  · exact Or.inr (Sweep.indegree_pos.mp (full.2 ▸ some))

theorem tierIn_of_settled (distinct : ids.Nodup) {v : String} (taken : v ∈ settled ids edges) :
    tierIn (tiers ids edges) v = (Sweep.finish ids edges).tierOf v :=
  tierIn_tiers (isSome_lookup_of_settled distinct taken)

theorem longest_tierIn (distinct : ids.Nodup) (v : String) (taken : v ∈ settled ids edges) :
    IsLongest (Sweep.known ids edges) v (tierIn (tiers ids edges) v) := by
  rw [tierIn_of_settled distinct taken]
  exact longest_tierOf distinct edges v taken

theorem Acyclic.mem_settled (acyclic : Acyclic (Sweep.known ids edges)) (distinct : ids.Nodup)
    {v : String} (listed : v ∈ ids) : v ∈ settled ids edges := by
  have full := (length_settled_iff distinct edges).mpr acyclic
  have within : settled ids edges ⊆ ids := fun v member =>
    ((PromptCanvas.mem_settled distinct edges v).mp member).1
  exact (((settled_nodup distinct edges).subperm within).perm_of_length_le
    (Nat.le_of_eq full.symm)).mem_iff.mpr listed

/-- Without a cycle, the tiers depend neither on the order of the identifiers nor on the order
or the multiplicity of the edges. -/
theorem tierIn_tiers_congr {others : List String} {more : List (String × String)}
    (distinct : ids.Nodup) (same : ids.Perm others) (joined : ∀ e, e ∈ more ↔ e ∈ edges)
    (acyclic : Acyclic (Sweep.known ids edges)) {v : String} (listed : v ∈ ids) :
    tierIn (tiers others more) v = tierIn (tiers ids edges) v := by
  have known : ∀ e, e ∈ Sweep.known others more ↔ e ∈ Sweep.known ids edges := by
    intro e
    rw [Sweep.mem_known, Sweep.mem_known, joined, same.mem_iff, same.mem_iff]
  have distinctOthers := same.nodup_iff.mp distinct
  have acyclicOthers := acyclic.mono fun e => (known e).mp
  have first := longest_tierIn distinct v (acyclic.mem_settled distinct listed)
  have second := longest_tierIn distinctOthers v
    (acyclicOthers.mem_settled distinctOthers (same.mem_iff.mp listed))
  exact (second.congr known).unique first

theorem tierIn_tiers_perm {others : List String} (distinct : ids.Nodup) (same : ids.Perm others)
    (acyclic : Acyclic (Sweep.known ids edges)) {v : String} (listed : v ∈ ids) :
    tierIn (tiers others edges) v = tierIn (tiers ids edges) v :=
  tierIn_tiers_congr distinct same (fun _ => Iff.rfl) acyclic listed

end Order

end PromptCanvas
