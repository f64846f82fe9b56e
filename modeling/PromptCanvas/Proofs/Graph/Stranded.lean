import PromptCanvas.Proofs.Graph.Levels

/-! # Identifiers that the walk does not come to

`stranded`: the identifiers that a cycle reaches and no edge enters (`mem_stranded`).  They
stand in tiers one after the other, as they are given (`pairwise_stranded`), and no tier depends
on anything else in the order of the identifiers (`tierIn_tiers_of_stranded`).  With cycles too
there are no more tiers than identifiers, but for the first (`tierIn_tiers_le`). -/

set_option autoImplicit false

namespace PromptCanvas

section Stranded

/-- A cycle reaches the identifier, and no edge leads to it from where none does. -/
def CutOff (edges : List (String × String)) (v : String) : Prop :=
  ¬ (CycleFree edges v ∨ Entered edges v)

def stranded (ids : List String) (edges : List (String × String)) : List String :=
  ids.filter fun id => ((Sweep.finish ids edges).tiers.lookup id).isNone

variable {ids : List String}

theorem mem_stranded (distinct : ids.Nodup) {edges : List (String × String)} {v : String} :
    v ∈ stranded ids edges ↔ v ∈ ids ∧ CutOff (Sweep.known ids edges) v := by
  have given := isSome_lookup_finish distinct edges v
  rw [stranded, List.mem_filter, ← Option.not_isSome, Bool.not_eq_true', ← Bool.not_eq_true, given]
  constructor
  · rintro ⟨listed, missed⟩
    exact ⟨listed, fun come => missed ⟨listed, come⟩⟩
  · rintro ⟨listed, missed⟩
    exact ⟨listed, fun come => missed come.2⟩

theorem map_tierIn_stranded (distinct : ids.Nodup) (edges : List (String × String)) :
    (stranded ids edges).map (tierIn (tiers ids edges)) =
      List.range' ((Sweep.finish ids edges).deepest + 1) (stranded ids edges).length :=
  map_appendTiers (distinct.filter _) _ _

theorem pairwise_stranded (distinct : ids.Nodup) (edges : List (String × String)) :
    (stranded ids edges).Pairwise fun a b =>
      tierIn (tiers ids edges) a < tierIn (tiers ids edges) b := by
  rw [← List.pairwise_map, map_tierIn_stranded distinct]
  exact List.pairwise_lt_range'

end Stranded

section Depths

variable {ids : List String} {edges : List (String × String)} (distinct : ids.Nodup)

include distinct

theorem tierIn_le_deepest {v : String} (listed : v ∈ ids)
    (free : CycleFree (Sweep.known ids edges) v) :
    tierIn (tiers ids edges) v ≤ (Sweep.finish ids edges).deepest :=
  (greatest_deepest distinct edges).2 (Or.inr ⟨v, listed, free, rfl⟩)

theorem tierIn_le_deepest_succ {v : String} (listed : v ∈ ids) (come : v ∉ stranded ids edges) :
    tierIn (tiers ids edges) v ≤ (Sweep.finish ids edges).deepest + 1 := by
  rw [mem_stranded distinct, CutOff, not_and, not_not] at come
  rcases come listed with free | entered
  · exact (tierIn_le_deepest distinct listed free).trans (Nat.le_succ _)
  · obtain ⟨u, edge, free, tier⟩ := (greatest_tierIn distinct entered).1
    rw [tier]
    exact Nat.succ_le_succ (tierIn_le_deepest distinct (Sweep.mem_known.mp edge).2.1 free)

theorem deepest_lt_tierIn {v : String} (left : v ∈ stranded ids edges) :
    (Sweep.finish ids edges).deepest < tierIn (tiers ids edges) v := by
  have tier := List.mem_map_of_mem (f := tierIn (tiers ids edges)) left
  rw [map_tierIn_stranded distinct, List.mem_range'_1] at tier
  exact tier.1

/-- Every tier down to that of an identifier is taken, but maybe the first. -/
theorem exists_tierIn {v : String} (listed : v ∈ ids) {n : Nat} (positive : 0 < n)
    (above : n ≤ tierIn (tiers ids edges) v) : ∃ u ∈ ids, tierIn (tiers ids edges) u = n := by
  rcases Nat.lt_or_ge (Sweep.finish ids edges).deepest n with below | inside
  · by_cases left : v ∈ stranded ids edges
    · have tier := List.mem_map_of_mem (f := tierIn (tiers ids edges)) left
      rw [map_tierIn_stranded distinct, List.mem_range'_1] at tier
      have taken : n ∈ (stranded ids edges).map (tierIn (tiers ids edges)) := by
        rw [map_tierIn_stranded distinct, List.mem_range'_1]
        omega
      obtain ⟨u, member, here⟩ := List.mem_map.mp taken
      exact ⟨u, List.mem_of_mem_filter member, here⟩
    · have most := tierIn_le_deepest_succ distinct listed left
      exact ⟨v, listed, by omega⟩
  · have closed : ∀ e ∈ Sweep.known ids edges, e.1 ∈ ids ∧ e.2 ∈ ids :=
      fun e member => (Sweep.mem_known.mp member).2
    rcases (greatest_deepest distinct edges).1 with none | ⟨u, member, free, tier⟩
    · omega
    · obtain ⟨w, named, -, here⟩ := exists_longest closed (levels_tiers distinct edges).longest n u
        member free (by omega)
      exact ⟨w, named, here⟩

theorem tierIn_tiers_le {v : String} (listed : v ∈ ids) :
    tierIn (tiers ids edges) v ≤ ids.length := by
  have taken : List.range' 1 (tierIn (tiers ids edges) v) ⊆ ids.map (tierIn (tiers ids edges)) := by
    intro n inside
    obtain ⟨least, most⟩ := List.mem_range'_1.mp inside
    have above : n ≤ tierIn (tiers ids edges) v := by omega
    obtain ⟨u, member, here⟩ := exists_tierIn distinct listed least above
    exact List.mem_map.mpr ⟨u, member, here⟩
  have count := (List.nodup_range' 1 Nat.one_pos).length_le_of_subset taken
  rwa [List.length_range', List.length_map] at count

end Depths

section Order

variable {ids others : List String} {edges : List (String × String)}

theorem Sweep.known_congr (same : ∀ v, v ∈ others ↔ v ∈ ids) (edges : List (String × String)) :
    Sweep.known others edges = Sweep.known ids edges :=
  List.filter_congr fun e _ => by simp only [List.contains_eq_mem, same]

variable (distinct : ids.Nodup) (same : ids.Perm others)

include distinct same

theorem tierIn_tiers_free {v : String} (listed : v ∈ ids)
    (free : CycleFree (Sweep.known ids edges) v) :
    tierIn (tiers others edges) v = tierIn (tiers ids edges) v := by
  have first := levels_tiers distinct edges
  have second := levels_tiers (same.nodup_iff.mp distinct) edges
  rw [Sweep.known_congr (fun _ => same.mem_iff.symm)] at second
  exact (second.longest v (same.mem_iff.mp listed) free).unique (first.longest v listed free)

theorem tierIn_tiers_entered {v : String} (entered : Entered (Sweep.known ids edges) v) :
    tierIn (tiers others edges) v = tierIn (tiers ids edges) v := by
  have known := Sweep.known_congr (fun _ => same.mem_iff.symm) edges
  have other := greatest_tierIn (same.nodup_iff.mp distinct) (known.symm ▸ entered)
  have sources : ∀ n, (∃ u, Joins (Sweep.known ids edges) u v ∧
      CycleFree (Sweep.known ids edges) u ∧ n = tierIn (tiers others edges) u + 1) ↔
        ∃ u, Joins (Sweep.known ids edges) u v ∧
          CycleFree (Sweep.known ids edges) u ∧ n = tierIn (tiers ids edges) u + 1 := by
    refine fun n => exists_congr fun u => and_congr_right fun edge =>
      and_congr_right fun free => ?_
    rw [tierIn_tiers_free distinct same (Sweep.mem_known.mp edge).2.1 free]
  rw [known, Set.ext sources] at other
  exact other.unique (greatest_tierIn distinct entered)

theorem deepest_perm (edges : List (String × String)) :
    (Sweep.finish others edges).deepest = (Sweep.finish ids edges).deepest := by
  have other := greatest_deepest (same.nodup_iff.mp distinct) edges
  have depths : ∀ n, (∃ v ∈ others, CycleFree (Sweep.known ids edges) v ∧
      n = tierIn (tiers others edges) v) ↔
        ∃ v ∈ ids, CycleFree (Sweep.known ids edges) v ∧ n = tierIn (tiers ids edges) v := by
    refine fun n => exists_congr fun v => ?_
    rw [← same.mem_iff]
    refine and_congr_right fun listed => and_congr_right fun free => ?_
    rw [tierIn_tiers_free distinct same listed free]
  rw [Sweep.known_congr (fun _ => same.mem_iff.symm), Set.ext depths] at other
  exact other.unique (greatest_deepest distinct edges)

theorem stranded_perm (edges : List (String × String)) :
    (stranded ids edges).Perm (stranded others edges) := by
  refine (List.perm_ext_iff_of_nodup (distinct.filter _)
    ((same.nodup_iff.mp distinct).filter _)).mpr fun v => ?_
  rw [← stranded, ← stranded, mem_stranded distinct, mem_stranded (same.nodup_iff.mp distinct),
    Sweep.known_congr (fun _ => same.mem_iff.symm), same.mem_iff]

/-- The order of the identifiers counts for the tiers only where they are stranded. -/
theorem tierIn_tiers_of_stranded (left : stranded others edges = stranded ids edges) {v : String}
    (listed : v ∈ ids) : tierIn (tiers others edges) v = tierIn (tiers ids edges) v := by
  by_cases missed : v ∈ stranded ids edges
  · have first := map_tierIn_stranded distinct edges
    have second := map_tierIn_stranded (same.nodup_iff.mp distinct) edges
    rw [left, deepest_perm distinct same, ← first] at second
    exact List.map_inj_left.mp second v missed
  · rw [mem_stranded distinct, CutOff, not_and, not_not] at missed
    rcases missed listed with free | entered
    · exact tierIn_tiers_free distinct same listed free
    · exact tierIn_tiers_entered distinct same entered

end Order

end PromptCanvas
