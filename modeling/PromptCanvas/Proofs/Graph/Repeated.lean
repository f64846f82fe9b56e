import Mathlib.Data.List.Dedup
import PromptCanvas.Proofs.Graph.Stranded

/-! # Identifiers that are listed more than once

The walk takes up an identifier that no edge leads to as often as it is listed.  That makes no
difference where it leads nowhere either (`alike_finish_dedup`): `Alike` walks differ in steps
that follow no edge.  So without a cycle every edge leads to a deeper tier as long as the
identifiers at which edges start, and no edge ends, are listed once (`tierIn_tiers_edge`). -/

set_option autoImplicit false

namespace PromptCanvas.Sweep

section Alike

variable {edges : List (String × String)} {s t : Sweep}

def leading (edges : List (String × String)) (queue : List String) : List String :=
  queue.filter fun u => !(targets edges u).isEmpty

theorem leading_cons_of_none {u : String} (none : targets edges u = []) (queue : List String) :
    leading edges (u :: queue) = leading edges queue := by
  simp [leading, none]

theorem leading_cons {u : String} (leads : targets edges u ≠ []) (queue : List String) :
    leading edges (u :: queue) = u :: leading edges queue := by
  simp [leading, leads]

/-- Two walks that have followed the same edges and have the same ones to follow. -/
structure Alike (edges : List (String × String)) (s t : Sweep) : Prop where
  queue : leading edges s.queue = leading edges t.queue
  followed : s.followed = t.followed
  tiers : ∀ v, s.tiers.lookup v = t.tiers.lookup v

theorem Alike.refl (s : Sweep) : Alike edges s s := ⟨rfl, rfl, fun _ => rfl⟩

theorem Alike.symm (alike : Alike edges s t) : Alike edges t s :=
  ⟨alike.queue.symm, alike.followed.symm, fun v => (alike.tiers v).symm⟩

theorem Alike.trans {r : Sweep} (first : Alike edges r s) (second : Alike edges s t) :
    Alike edges r t :=
  ⟨first.queue.trans second.queue, first.followed.trans second.followed,
    fun v => (first.tiers v).trans (second.tiers v)⟩

theorem Alike.tierOf (alike : Alike edges s t) (v : String) : s.tierOf v = t.tierOf v := by
  rw [Sweep.tierOf, Sweep.tierOf, alike.tiers]

theorem Alike.follow (alike : Alike edges s t) (tier : Nat) (target : String) :
    Alike edges (s.follow edges tier target) (t.follow edges tier target) := by
  constructor
  case queue =>
    simp only [Sweep.follow, alike.followed]
    split
    · simp only [leading, List.filter_append]
      exact congrArg (· ++ _) alike.queue
    · exact alike.queue
  case followed => simp only [Sweep.follow, alike.followed]
  case tiers =>
    intro v
    simp only [Sweep.follow, alike.tierOf, List.lookup_cons, alike.tiers]

theorem Alike.followAll (tier : Nat) (aims : List String) (alike : Alike edges s t) :
    Alike edges (aims.foldl (Sweep.follow edges tier) s)
      (aims.foldl (Sweep.follow edges tier) t) := by
  induction aims generalizing s t with
  | nil => exact alike
  | cons target rest ih => exact ih (alike.follow tier target)

theorem alike_take {u : String} {queue : List String} (first : s.queue = u :: queue)
    (none : targets edges u = []) : Alike edges (s.take edges) s := by
  rw [take_cons first, none]
  exact ⟨by rw [first, leading_cons_of_none none]; rfl, rfl, fun _ => rfl⟩

theorem Alike.take {u : String} {queue others : List String} (alike : Alike edges s t)
    (first : s.queue = u :: queue) (second : t.queue = u :: others)
    (leads : targets edges u ≠ []) : Alike edges (s.take edges) (t.take edges) := by
  rw [take_cons first, take_cons second, alike.tierOf]
  refine Alike.followAll _ _ ⟨?_, alike.followed, alike.tiers⟩
  have same := alike.queue
  rw [first, second, leading_cons leads, leading_cons leads, List.cons.injEq] at same
  exact same.2

/-- The queue is empty, or there is an edge out of its first identifier. -/
def Busy (edges : List (String × String)) (s : Sweep) : Prop :=
  s.queue = [] ∨ ∃ u queue, s.queue = u :: queue ∧ targets edges u ≠ []

/-- A walk can do without the steps at its beginning that follow no edge. -/
theorem exists_busy {n : Nat} (ends : (run edges n s).queue = []) :
    ∃ r, Alike edges r s ∧ Busy edges r ∧ ∃ m ≤ n, run edges m r = run edges n s := by
  induction n generalizing s with
  | zero => exact ⟨s, .refl s, Or.inl ends, 0, Nat.le_refl 0, rfl⟩
  | succ n ih =>
      cases first : s.queue with
      | nil => exact ⟨s, .refl s, Or.inl first, n + 1, Nat.le_refl _, rfl⟩
      | cons u queue =>
          by_cases none : targets edges u = []
          · obtain ⟨r, alike, busy, m, le, same⟩ := ih ends
            exact ⟨r, alike.trans (alike_take first none), busy, m, by omega, same⟩
          · exact ⟨s, .refl s, Or.inr ⟨u, queue, first, none⟩, n + 1, Nat.le_refl _, rfl⟩

theorem Alike.heads (alike : Alike edges s t) (first : Busy edges s) (second : Busy edges t) :
    (s.queue = [] ∧ t.queue = []) ∨ ∃ u queue others, s.queue = u :: queue ∧
      t.queue = u :: others ∧ targets edges u ≠ [] := by
  have same := alike.queue
  rcases first with none | ⟨u, queue, here, leads⟩
  · rcases second with done | ⟨v, others, there, leads⟩
    · exact Or.inl ⟨none, done⟩
    · rw [none, there, leading_cons leads] at same
      exact absurd same (List.cons_ne_nil _ _).symm
  · rcases second with done | ⟨v, others, there, leads'⟩
    · rw [done, here, leading_cons leads] at same
      exact absurd same (List.cons_ne_nil _ _)
    · rw [here, there, leading_cons leads, leading_cons leads', List.cons.injEq] at same
      exact Or.inr ⟨u, queue, others, here, same.1 ▸ there, leads⟩

theorem Alike.run {n : Nat} :
    ∀ (m : Nat) {s t : Sweep}, Alike edges s t → (run edges n s).queue = [] →
      (run edges m t).queue = [] → Alike edges (run edges n s) (run edges m t) := by
  -- strong induction: one step may skip several that follow no edge
  induction n using Nat.strong_induction_on with
  | _ n ih =>
      intro m s t alike ends stops
      obtain ⟨s', likeS, busyS, k, le, sameS⟩ := exists_busy ends
      obtain ⟨t', likeT, busyT, l, -, sameT⟩ := exists_busy stops
      have alike' := likeS.trans (alike.trans likeT.symm)
      rw [← sameS] at ends ⊢
      rw [← sameT] at stops ⊢
      rcases alike'.heads busyS busyT with ⟨none, done⟩ | ⟨u, queue, others, first, second, leads⟩
      · rw [run_of_empty none, run_of_empty done]
        exact alike'
      · cases k with
        | zero => exact absurd (first.symm.trans ends) (List.cons_ne_nil _ _)
        | succ k =>
            cases l with
            | zero => exact absurd (second.symm.trans stops) (List.cons_ne_nil _ _)
            | succ l => exact ih k le l (alike'.take first second leads) ends stops

end Alike

end PromptCanvas.Sweep

namespace PromptCanvas

theorem filter_dedup {α : Type} [DecidableEq α] {p : α → Bool} {l : List α}
    (once : ∀ a ∈ l, p a = true → l.count a = 1) : l.dedup.filter p = l.filter p := by
  induction l with
  | nil => rfl
  | cons a rest ih =>
      have others : ∀ b ∈ rest, p b = true → rest.count b = 1 := by
        intro b later holds
        have twice := once b (List.mem_cons_of_mem _ later) holds
        have some := List.count_pos_iff.mpr later
        rw [List.count_cons] at twice
        omega
      by_cases later : a ∈ rest
      · have fails : ¬ p a = true := by
          intro holds
          have twice := once a (List.mem_cons_self ..) holds
          have some := List.count_pos_iff.mpr later
          rw [List.count_cons_self] at twice
          omega
        rw [List.dedup_cons_of_mem later, List.filter_cons_of_neg fails, ih others]
      · rw [List.dedup_cons_of_notMem later, List.filter_cons, List.filter_cons, ih others]

section Repeated

variable {ids : List String} {edges : List (String × String)}

/-- Where an edge starts to which no edge leads, the identifier is listed once. -/
def StartsOnce (ids : List String) (edges : List (String × String)) : Prop :=
  ∀ e ∈ edges, Sweep.indegree edges e.1 = 0 → ids.count e.1 = 1

instance (ids : List String) (edges : List (String × String)) : Decidable (StartsOnce ids edges) :=
  inferInstanceAs (Decidable (∀ e ∈ edges, Sweep.indegree edges e.1 = 0 → ids.count e.1 = 1))

theorem Sweep.lookup_start (ids : List String) (edges : List (String × String)) (v : String) :
    (start ids edges).tiers.lookup v = if v ∈ ids ∧ indegree edges v = 0 then some 0 else none := by
  have given : ∀ sources : List String,
      (sources.map fun id => (id, 0)).lookup v = if v ∈ sources then some 0 else none := by
    intro sources
    induction sources with
    | nil => rfl
    | cons id rest ih =>
        by_cases here : v = id
        · simp [here]
        · have ne : (v == id) = false := beq_false_of_ne here
          simp [List.lookup_cons, ne, here, ih]
  simp [start, ← List.map_reverse, given]

theorem alike_finish_dedup (once : StartsOnce ids (Sweep.known ids edges)) :
    Sweep.Alike (Sweep.known ids edges) (Sweep.finish ids edges)
      (Sweep.finish ids.dedup edges) := by
  have known : Sweep.known ids.dedup edges = Sweep.known ids edges :=
    Sweep.known_congr (fun _ => List.mem_dedup) edges
  have ends := Sweep.queue_finish ids edges
  have stops := Sweep.queue_finish ids.dedup edges
  rw [Sweep.finish, known] at stops
  rw [Sweep.finish, Sweep.finish, known]
  refine Sweep.Alike.run _ ⟨?_, rfl, fun v => ?_⟩ ends stops
  · simp only [Sweep.leading, Sweep.start, List.filter_filter]
    refine (filter_dedup fun v listed starts => ?_).symm
    simp only [Bool.and_eq_true, Bool.not_eq_true', beq_iff_eq,
      List.isEmpty_eq_false_iff_exists_mem] at starts
    obtain ⟨⟨target, aim⟩, none⟩ := starts
    exact once _ (Sweep.mem_targets.mp aim) none
  · simp only [Sweep.lookup_start, List.mem_dedup]

theorem acyclic_known_iff (ids : List String) (edges : List (String × String)) :
    (settled ids.dedup edges).length = ids.dedup.length ↔ Acyclic (Sweep.known ids edges) := by
  rw [length_settled_iff ids.nodup_dedup, Sweep.known_congr fun _ => List.mem_dedup]

variable (acyclic : Acyclic (Sweep.known ids edges)) (once : StartsOnce ids (Sweep.known ids edges))

include acyclic once

theorem tierIn_tiers_dedup {v : String} (listed : v ∈ ids) :
    tierIn (tiers ids edges) v = tierIn (tiers ids.dedup edges) v := by
  have alike := alike_finish_dedup once
  have distinct := ids.nodup_dedup
  rw [← Sweep.known_congr (fun _ => List.mem_dedup) edges] at acyclic
  have taken := acyclic.mem_settled distinct (List.mem_dedup.mpr listed)
  have given := isSome_lookup_of_settled distinct taken
  rw [tierIn_of_settled distinct taken, tierIn_tiers (by rwa [alike.tiers]), alike.tierOf]

theorem tierIn_tiers_edge {u v : String} (edge : (u, v) ∈ Sweep.known ids edges) :
    tierIn (tiers ids edges) u < tierIn (tiers ids edges) v := by
  obtain ⟨-, first, second⟩ := Sweep.mem_known.mp edge
  have known : Sweep.known ids.dedup edges = Sweep.known ids edges :=
    Sweep.known_congr (fun _ => List.mem_dedup) edges
  rw [tierIn_tiers_dedup acyclic once first, tierIn_tiers_dedup acyclic once second]
  rw [← known] at acyclic edge
  have free : ∀ w, CycleFree (Sweep.known ids.dedup edges) w := fun _ w _ => acyclic w
  have longest := (levels_tiers ids.nodup_dedup edges).longest
  have above := longest u (List.mem_dedup.mpr first) (free u)
  have below := longest v (List.mem_dedup.mpr second) (free v)
  exact below.bound _ (above.trail.along edge)

theorem tierIn_tiers_lt_length {v : String} (listed : v ∈ ids) :
    tierIn (tiers ids edges) v < ids.length := by
  rw [tierIn_tiers_dedup acyclic once listed]
  rw [← Sweep.known_congr (fun _ => List.mem_dedup) edges] at acyclic
  exact (tierIn_tiers_lt ids.nodup_dedup acyclic (List.mem_dedup.mpr listed)).trans_le
    ids.dedup_sublist.length_le

end Repeated

end PromptCanvas
