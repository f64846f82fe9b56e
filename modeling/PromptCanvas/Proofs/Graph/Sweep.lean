import Mathlib.Data.List.Perm.Subperm
import PromptCanvas.Graph.Tier

/-! # What a walk over the edges preserves

`Sweep.Sound`: a walk that has followed exactly the edges `walked` holds the
identifiers that have no other edge into them, and its tiers are one more than
those before them.  `Sound.follow` is the step over one edge, `Settling.take` the step
over one identifier with all edges out of it, and `settling_finish` what they come to
at the end of the walk.  The walk comes to its end however often identifiers are listed
(`queue_finish`). -/

set_option autoImplicit false

namespace PromptCanvas.Sweep

section Counting

theorem indegree_cons (e : String × String) (edges : List (String × String)) (v : String) :
    indegree (e :: edges) v = indegree edges v + (if e.2 = v then 1 else 0) := by
  simp [indegree, List.countP_cons]

theorem indegree_append (edges others : List (String × String)) (v : String) :
    indegree (edges ++ others) v = indegree edges v + indegree others v := by
  simp [indegree]

theorem indegree_pos {edges : List (String × String)} {v : String} :
    0 < indegree edges v ↔ ∃ e ∈ edges, e.2 = v := by
  simp [indegree, List.countP_pos_iff]

theorem count_targets (edges : List (String × String)) (u v : String) :
    (targets edges u).count v = edges.countP fun e => e.1 == u && e.2 == v := by
  simp only [targets, List.count, List.countP_map, List.countP_filter]
  exact List.countP_congr fun e _ => by simp [and_comm]

theorem mem_targets {edges : List (String × String)} {u v : String} :
    v ∈ targets edges u ↔ (u, v) ∈ edges := by
  simp only [targets, List.mem_map, List.mem_filter, beq_iff_eq]
  constructor
  · rintro ⟨⟨a, b⟩, ⟨member, rfl⟩, rfl⟩
    exact member
  · intro member
    exact ⟨(u, v), ⟨member, rfl⟩, rfl⟩

/-- The edges into `v` that come from one of the listed identifiers. -/
def entering (edges : List (String × String)) (sources : List String) (v : String) : Nat :=
  edges.countP fun e => e.2 == v && sources.contains e.1

theorem entering_le (edges : List (String × String)) (sources : List String) (v : String) :
    entering edges sources v ≤ indegree edges v := by
  apply List.countP_mono_left
  intro e _ h
  exact (Bool.and_eq_true _ _ ▸ h).1

theorem entering_snoc (edges : List (String × String)) {sources : List String} {u : String}
    (fresh : u ∉ sources) (v : String) :
    entering edges (sources ++ [u]) v = entering edges sources v + (targets edges u).count v := by
  rw [count_targets]
  induction edges with
  | nil => rfl
  | cons e rest ih =>
      simp only [entering] at ih
      simp only [entering, List.countP_cons, ih]
      by_cases hu : e.1 = u
      · by_cases hv : e.2 = v
        · simp [hu, hv, fresh]
          omega
        · simp [hu, hv]
      · by_cases hv : e.2 = v
        · simp [hu, hv]
          omega
        · simp [hu, hv]

theorem entering_eq_indegree {edges : List (String × String)} {sources : List String} {v : String} :
    entering edges sources v = indegree edges v ↔ ∀ e ∈ edges, e.2 = v → e.1 ∈ sources := by
  induction edges with
  | nil => simp [entering, indegree]
  | cons e rest ih =>
      have le := entering_le rest sources v
      simp only [entering, indegree, List.contains_eq_mem] at ih le ⊢
      simp only [List.countP_cons, List.mem_cons, forall_eq_or_imp, ← ih]
      by_cases hv : e.2 = v
      · by_cases hs : e.1 ∈ sources
        · simp [hv, hs]
        · simp [hv, hs]
          omega
      · simp [hv]

end Counting

section Ending

variable {ids : List String} {edges : List (String × String)} {s : Sweep}

theorem mem_known {edges : List (String × String)} {e : String × String} :
    e ∈ known ids edges ↔ e ∈ edges ∧ e.1 ∈ ids ∧ e.2 ∈ ids := by
  simp [known]

theorem settled_foldl_follow (tier : Nat) (targets : List String) (s : Sweep) :
    (targets.foldl (follow edges tier) s).settled = s.settled := by
  induction targets generalizing s with
  | nil => rfl
  | cons target rest ih => exact ih _

theorem take_of_empty (idle : s.queue = []) : s.take edges = s := by
  simp only [Sweep.take, idle]

theorem take_cons {u : String} {queue : List String} (first : s.queue = u :: queue) :
    s.take edges = (targets edges u).foldl (follow edges (s.tierOf u))
      { s with
        queue := queue
        settled := s.settled ++ [u]
        deepest := max s.deepest (s.tierOf u) } := by
  simp only [Sweep.take, first]

theorem settled_take {u : String} {queue : List String} (first : s.queue = u :: queue) :
    (s.take edges).settled = s.settled ++ [u] := by
  rw [take_cons first, settled_foldl_follow]

theorem run_of_empty (idle : s.queue = []) (n : Nat) : run edges n s = s := by
  induction n with
  | zero => rfl
  | succ n ih => rw [run, take_of_empty idle, ih]

/-- A walk ends with an empty queue unless it takes up an identifier at every step. -/
theorem run_ends (n : Nat) (s : Sweep) :
    (run edges n s).queue = [] ∨ (run edges n s).settled.length = s.settled.length + n := by
  induction n generalizing s with
  | zero => exact Or.inr rfl
  | succ n ih =>
      cases first : s.queue with
      | nil => exact Or.inl (by rw [run_of_empty first, first])
      | cons u queue =>
          refine (ih (s.take edges)).imp_right fun length => ?_
          rw [run, length, settled_take first, List.length_append, List.length_singleton]
          omega

/-- No identifier is taken up more often than it is listed, and one that edges lead to only when
they have been followed, and once. -/
structure Counted (ids : List String) (edges : List (String × String)) (s : Sweep) : Prop where
  free : ∀ v, indegree edges v = 0 → (s.settled ++ s.queue).count v ≤ ids.count v
  led : ∀ v, 0 < indegree edges v →
    (s.settled ++ s.queue).count v ≤ if indegree edges v ≤ s.followed.count v then 1 else 0

theorem Counted.follow {target : String} (counted : Counted ids edges s)
    (leads : 0 < indegree edges target) (tier : Nat) :
    Counted ids edges (s.follow edges tier target) := by
  have others : ∀ v, v ≠ target →
      ((s.follow edges tier target).settled ++ (s.follow edges tier target).queue).count v =
        (s.settled ++ s.queue).count v := by
    intro v other
    simp only [Sweep.follow]
    split
    · simp [List.count_append, Ne.symm other]
    · rfl
  constructor
  · intro v none
    rw [others v fun same => by rw [same] at none; omega]
    exact counted.free v none
  · intro v led
    by_cases same : v = target
    · subst same
      have before := counted.led v led
      simp only [Sweep.follow, List.count_cons_self]
      by_cases last : s.followed.count v + 1 = indegree edges v
      · rw [if_neg (by omega)] at before
        rw [if_pos last, if_pos (Nat.le_of_eq last.symm), ← List.append_assoc, List.count_append,
          List.count_singleton_self]
        omega
      · rw [if_neg last]
        split at before
        · rwa [if_pos (by omega)]
        · exact Nat.le_trans before (Nat.zero_le _)
    · rw [others v same]
      simpa [Sweep.follow, List.count_cons, Ne.symm same] using counted.led v led

theorem Counted.followAll (tier : Nat) {aims : List String}
    (leads : ∀ t ∈ aims, 0 < indegree edges t) (counted : Counted ids edges s) :
    Counted ids edges (aims.foldl (Sweep.follow edges tier) s) := by
  induction aims generalizing s with
  | nil => exact counted
  | cons t rest ih =>
      rw [List.forall_mem_cons] at leads
      exact ih leads.2 (counted.follow leads.1 tier)

theorem Counted.take (counted : Counted ids edges s) : Counted ids edges (s.take edges) := by
  cases first : s.queue with
  | nil => rwa [take_of_empty first]
  | cons u queue =>
      have moved : s.settled ++ [u] ++ queue = s.settled ++ s.queue := by
        rw [first, List.append_assoc, List.singleton_append]
      rw [take_cons first]
      refine Counted.followAll _ (fun t member => ?_) ⟨fun v none => ?_, fun v led => ?_⟩
      · exact indegree_pos.mpr ⟨_, mem_targets.mp member, rfl⟩
      · exact moved ▸ counted.free v none
      · exact moved ▸ counted.led v led

theorem Counted.run (n : Nat) (counted : Counted ids edges s) :
    Counted ids edges (run edges n s) := by
  induction n generalizing s with
  | zero => exact counted
  | succ n ih => exact ih counted.take

theorem counted_start (ids : List String) (edges : List (String × String)) :
    Counted ids edges (start ids edges) := by
  have waiting : (start ids edges).settled ++ (start ids edges).queue =
      ids.filter fun id => indegree edges id == 0 := List.nil_append _
  constructor
  · intro v _
    rw [waiting]
    exact List.filter_sublist.count_le v
  · intro v led
    rw [waiting, List.count_eq_zero_of_not_mem]
    · exact Nat.zero_le _
    · simp [Nat.ne_of_gt led]

theorem Counted.length_le (closed : ∀ e ∈ edges, e.2 ∈ ids) (counted : Counted ids edges s) :
    (s.settled ++ s.queue).length ≤ ids.length := by
  refine (List.subperm_ext_iff.mpr fun v _ => ?_).length_le
  rcases Nat.eq_zero_or_pos (indegree edges v) with none | led
  · exact counted.free v none
  · obtain ⟨e, member, rfl⟩ := indegree_pos.mp led
    have once := counted.led e.2 led
    have listed := List.count_pos_iff.mpr (closed e member)
    split at once <;> omega

/-- However often identifiers are listed, the walk comes to its end. -/
theorem queue_finish (ids : List String) (edges : List (String × String)) :
    (finish ids edges).queue = [] := by
  have counted : Counted ids (known ids edges) (finish ids edges) :=
    (counted_start ids (known ids edges)).run ids.length
  have bound := counted.length_le fun e member => (mem_known.mp member).2.2
  rcases run_ends ids.length (start ids (known ids edges)) with idle | length
  · exact idle
  · have all : (finish ids edges).settled.length = ids.length := by
      simpa [finish, start] using length
    rw [List.length_append, all] at bound
    exact List.length_eq_zero_iff.mp (by omega)

end Ending

section Invariant

variable {ids : List String} {edges walked : List (String × String)} {s : Sweep}

/-- A walk that has followed the edges `walked`, the newest first. -/
structure Sound (ids : List String) (edges walked : List (String × String)) (s : Sweep) : Prop where
  followed : s.followed = walked.map Prod.snd
  sources : ∀ e ∈ walked, e.1 ∈ s.settled
  nodup : (s.settled ++ s.queue).Nodup
  taken : ∀ v, v ∈ s.settled ++ s.queue ↔ v ∈ ids ∧ indegree walked v = indegree edges v
  deeper : ∀ e ∈ walked, s.tierOf e.1 + 1 ≤ s.tierOf e.2
  reached : ∀ v, (s.tiers.lookup v).isSome ↔
    (v ∈ ids ∧ indegree edges v = 0) ∨ ∃ e ∈ walked, e.2 = v
  attained : ∀ v, s.tierOf v = 0 ∨ ∃ e ∈ walked, e.2 = v ∧ s.tierOf v = s.tierOf e.1 + 1
  deepest_le : ∀ v ∈ s.settled, s.tierOf v ≤ s.deepest
  deepest_attained : s.deepest = 0 ∨ ∃ v ∈ s.settled, s.tierOf v = s.deepest

/-- The walk between two identifiers: the edges followed are those out of what was taken up. -/
structure Settling (ids : List String) (edges walked : List (String × String)) (s : Sweep) : Prop
    extends Sound ids edges walked s where
  complete : ∀ e, e ∈ walked ↔ e ∈ edges ∧ e.1 ∈ s.settled
  counted : ∀ v, indegree walked v = entering edges s.settled v

theorem tierOf_follow (tier : Nat) (target v : String) :
    (s.follow edges tier target).tierOf v =
      if v = target then max (s.tierOf target) (tier + 1) else s.tierOf v := by
  by_cases h : v = target
  · simp [follow, tierOf, h]
  · have ne : (v == target) = false := beq_false_of_ne h
    simp [follow, tierOf, List.lookup_cons, h, ne]

theorem isSome_lookup_follow (tier : Nat) (target v : String) :
    ((s.follow edges tier target).tiers.lookup v).isSome ↔
      v = target ∨ (s.tiers.lookup v).isSome := by
  by_cases h : v = target
  · simp [follow, h]
  · have ne : (v == target) = false := beq_false_of_ne h
    simp [follow, List.lookup_cons, h, ne]

theorem queue_follow (u target : String) (sound : Sound ids edges walked s) (tier : Nat) :
    (s.follow edges tier target).queue =
      if indegree ((u, target) :: walked) target = indegree edges target then s.queue ++ [target]
      else s.queue := by
  have count : (target :: s.followed).count target = indegree ((u, target) :: walked) target := by
    rw [sound.followed, indegree_cons]
    simp [List.count, indegree, List.countP_map, Function.comp_def]
  simp only [follow, count]

theorem tierOf_follow_self (tier : Nat) (target : String) :
    (s.follow edges tier target).tierOf target = max (s.tierOf target) (tier + 1) := by
  rw [tierOf_follow, if_pos rfl]

theorem tierOf_le_follow (tier : Nat) (target v : String) :
    s.tierOf v ≤ (s.follow edges tier target).tierOf v := by
  rw [tierOf_follow]
  split
  · next same => exact same ▸ Nat.le_max_left _ _
  · exact Nat.le_refl _

section Edge

variable {u v target : String}

/-- An identifier that an edge is still to lead to was not taken up and does not wait. -/
theorem Sound.notMem (sound : Sound ids edges walked s)
    (unfollowed : indegree walked target < indegree edges target) :
    target ∉ s.settled ++ s.queue := by
  intro member
  have full := ((sound.taken target).mp member).2
  omega

theorem Sound.tierOf_follow_settled (sound : Sound ids edges walked s)
    (unfollowed : indegree walked target < indegree edges target) (tier : Nat)
    (settled : v ∈ s.settled) : (s.follow edges tier target).tierOf v = s.tierOf v := by
  rw [tierOf_follow, if_neg]
  rintro rfl
  exact sound.notMem unfollowed (List.mem_append_left _ settled)

theorem Sound.nodup_follow (sound : Sound ids edges walked s)
    (unfollowed : indegree walked target < indegree edges target) :
    (s.settled ++ (s.follow edges (s.tierOf u) target).queue).Nodup := by
  rw [queue_follow u target sound]
  split
  · rw [← List.append_assoc, List.nodup_append]
    refine ⟨sound.nodup, by simp, ?_⟩
    intro w waits x last same
    rw [same, List.mem_singleton.mp last] at waits
    exact sound.notMem unfollowed waits
  · exact sound.nodup

theorem Sound.taken_follow (sound : Sound ids edges walked s) (listed : target ∈ ids)
    (unfollowed : indegree walked target < indegree edges target) (v : String) :
    v ∈ s.settled ++ (s.follow edges (s.tierOf u) target).queue ↔
      v ∈ ids ∧ indegree ((u, target) :: walked) v = indegree edges v := by
  rw [queue_follow u target sound]
  by_cases into : v = target
  · subst into
    have waiting := sound.notMem unfollowed
    split
    · next full => simp [full, listed]
    · next short => simp only [waiting, short, and_false]
  · have same : indegree ((u, target) :: walked) v = indegree walked v := by
      simp [indegree_cons, Ne.symm into]
    rw [same, ← sound.taken v]
    split
    · simp [into]
    · rfl

theorem Sound.reached_follow (sound : Sound ids edges walked s) (v : String) :
    ((s.follow edges (s.tierOf u) target).tiers.lookup v).isSome ↔
      (v ∈ ids ∧ indegree edges v = 0) ∨ ∃ e ∈ (u, target) :: walked, e.2 = v := by
  rw [isSome_lookup_follow, sound.reached v]
  simp only [List.mem_cons, exists_eq_or_imp]
  constructor
  · rintro (rfl | source | walked)
    · exact Or.inr (Or.inl rfl)
    · exact Or.inl source
    · exact Or.inr (Or.inr walked)
  · rintro (source | rfl | walked)
    · exact Or.inr (Or.inl source)
    · exact Or.inl rfl
    · exact Or.inr (Or.inr walked)

theorem Sound.deeper_follow (sound : Sound ids edges walked s) (settled : u ∈ s.settled)
    (unfollowed : indegree walked target < indegree edges target) :
    ∀ e ∈ (u, target) :: walked, (s.follow edges (s.tierOf u) target).tierOf e.1 + 1 ≤
      (s.follow edges (s.tierOf u) target).tierOf e.2 := by
  refine List.forall_mem_cons.mpr ⟨?_, fun e member => ?_⟩
  · rw [sound.tierOf_follow_settled unfollowed _ settled, tierOf_follow_self]
    exact Nat.le_max_right _ _
  · rw [sound.tierOf_follow_settled unfollowed _ (sound.sources e member)]
    exact Nat.le_trans (sound.deeper e member) (tierOf_le_follow _ target e.2)

theorem Sound.attained_follow (sound : Sound ids edges walked s) (settled : u ∈ s.settled)
    (unfollowed : indegree walked target < indegree edges target) (v : String) :
    (s.follow edges (s.tierOf u) target).tierOf v = 0 ∨ ∃ e ∈ (u, target) :: walked, e.2 = v ∧
      (s.follow edges (s.tierOf u) target).tierOf v =
        (s.follow edges (s.tierOf u) target).tierOf e.1 + 1 := by
  have old : s.tierOf v = 0 ∨ ∃ e ∈ (u, target) :: walked, e.2 = v ∧
      s.tierOf v = (s.follow edges (s.tierOf u) target).tierOf e.1 + 1 := by
    apply (sound.attained v).imp_right
    rintro ⟨e, member, into, tier⟩
    refine ⟨e, List.mem_cons_of_mem _ member, into, ?_⟩
    rw [sound.tierOf_follow_settled unfollowed _ (sound.sources e member), tier]
  by_cases into : v = target
  · subst into
    rw [tierOf_follow_self]
    rcases Nat.le_total (s.tierOf v) (s.tierOf u + 1) with le | le
    · refine Or.inr ⟨(u, v), List.mem_cons_self .., rfl, ?_⟩
      rw [sound.tierOf_follow_settled unfollowed _ settled, Nat.max_eq_right le]
    · rw [Nat.max_eq_left le]
      exact old
  · rw [tierOf_follow, if_neg into]
    exact old

/-- The step over one edge, out of an identifier that was taken up. -/
theorem Sound.follow (sound : Sound ids edges walked s) (settled : u ∈ s.settled)
    (listed : target ∈ ids) (unfollowed : indegree walked target < indegree edges target) :
    Sound ids edges ((u, target) :: walked) (s.follow edges (s.tierOf u) target) := by
  have kept : ∀ v ∈ s.settled, (s.follow edges (s.tierOf u) target).tierOf v = s.tierOf v :=
    fun v => sound.tierOf_follow_settled unfollowed _
  constructor
  case followed => simp [Sweep.follow, sound.followed]
  case sources => exact List.forall_mem_cons.mpr ⟨settled, sound.sources⟩
  case nodup => exact sound.nodup_follow unfollowed
  case taken => exact sound.taken_follow listed unfollowed
  case deeper => exact sound.deeper_follow settled unfollowed
  case reached => exact sound.reached_follow
  case attained => exact sound.attained_follow settled unfollowed
  case deepest_le =>
    intro v member
    rw [kept v member]
    exact sound.deepest_le v member
  case deepest_attained =>
    apply sound.deepest_attained.imp_right
    rintro ⟨v, member, tier⟩
    exact ⟨v, member, (kept v member).trans tier⟩

end Edge

/-- The step over the edges out of one identifier, as far as they are counted. -/
theorem Sound.followAll {u : String} (targets : List String) :
    ∀ {walked : List (String × String)} {s : Sweep}, Sound ids edges walked s → u ∈ s.settled →
      (∀ t ∈ targets, t ∈ ids) →
      (∀ v, indegree walked v + targets.count v ≤ indegree edges v) →
      Sound ids edges ((targets.map fun t => (u, t)).reverse ++ walked)
        (targets.foldl (Sweep.follow edges (s.tierOf u)) s) := by
  induction targets with
  | nil => intro walked s sound _ _ _; exact sound
  | cons t rest ih =>
      intro walked s sound settled listed room
      have open_ : indegree walked t < indegree edges t := by
        have := room t
        rw [List.count_cons_self] at this
        omega
      have next := sound.follow settled (listed t (List.mem_cons_self ..)) open_
      have tier : (s.follow edges (s.tierOf u) t).tierOf u = s.tierOf u := by
        rw [tierOf_follow, if_neg]
        rintro rfl
        have := ((sound.taken u).mp (List.mem_append_left _ settled)).2
        omega
      have step := ih next settled (fun a ha => listed a (List.mem_cons_of_mem _ ha)) (by
        intro v
        have := room v
        simp only [indegree_cons]
        simp only [List.count_cons, beq_iff_eq] at this
        omega)
      rw [tier] at step
      simpa [Sweep.follow] using step

/-- The walk when it has taken up an identifier and followed no edge out of it yet. -/
def taking (s : Sweep) (u : String) (queue : List String) : Sweep :=
  { s with queue := queue, settled := s.settled ++ [u], deepest := max s.deepest (s.tierOf u) }

theorem Sound.taking {u : String} {queue : List String} (sound : Sound ids edges walked s)
    (first : s.queue = u :: queue) : Sound ids edges walked (s.taking u queue) := by
  have moved : (s.taking u queue).settled ++ (s.taking u queue).queue = s.settled ++ s.queue := by
    simp [Sweep.taking, first]
  constructor
  case followed => exact sound.followed
  case sources => exact fun e member => List.mem_append_left _ (sound.sources e member)
  case nodup =>
    rw [moved]
    exact sound.nodup
  case taken =>
    intro v
    rw [moved]
    exact sound.taken v
  case deeper => exact sound.deeper
  case reached => exact sound.reached
  case attained => exact sound.attained
  case deepest_le =>
    intro v member
    rcases List.mem_append.mp member with member | member
    · exact Nat.le_trans (sound.deepest_le v member) (Nat.le_max_left _ _)
    · rw [List.mem_singleton.mp member]
      exact Nat.le_max_right _ _
  case deepest_attained =>
    rcases Nat.le_total s.deepest (s.tierOf u) with le | le
    · exact Or.inr ⟨u, by simp [Sweep.taking], (Nat.max_eq_right le).symm⟩
    · rw [show (s.taking u queue).deepest = s.deepest from Nat.max_eq_left le]
      apply sound.deepest_attained.imp_right
      rintro ⟨v, member, tier⟩
      exact ⟨v, List.mem_append_left _ member, tier⟩

theorem Settling.take {u : String} {queue : List String} (settling : Settling ids edges walked s)
    (closed : ∀ e ∈ edges, e.2 ∈ ids) (first : s.queue = u :: queue) :
    ∃ walked, Settling ids edges walked (s.take edges) := by
  have fresh : u ∉ s.settled := by
    intro member
    have nodup := settling.nodup
    rw [first] at nodup
    exact (List.nodup_append.mp nodup).2.2 u member u (List.mem_cons_self ..) rfl
  have sound := settling.toSound.taking first
  have equation : s.take edges =
      (targets edges u).foldl (Sweep.follow edges ((s.taking u queue).tierOf u))
        (s.taking u queue) := take_cons first
  have room : ∀ v, indegree walked v + (targets edges u).count v ≤ indegree edges v := by
    intro v
    rw [settling.counted v, ← entering_snoc edges fresh v]
    exact entering_le _ _ _
  have settled : u ∈ (s.taking u queue).settled := by simp [taking]
  have after := sound.followAll (targets edges u) settled
    (fun t member => closed _ (mem_targets.mp member)) room
  have same : (s.take edges).settled = s.settled ++ [u] := settled_take first
  rw [← equation] at after
  refine ⟨_, after, ?complete, ?counted⟩
  case complete =>
    intro e
    simp only [List.mem_append, List.mem_reverse, List.mem_map, mem_targets, same,
      List.mem_singleton, settling.complete e]
    constructor
    · rintro (⟨t, member, rfl⟩ | ⟨member, source⟩)
      · exact ⟨member, Or.inr rfl⟩
      · exact ⟨member, Or.inl source⟩
    · rintro ⟨member, source | source⟩
      · exact Or.inr ⟨member, source⟩
      · subst source
        exact Or.inl ⟨e.2, member, rfl⟩
  case counted =>
    intro v
    rw [same, entering_snoc edges fresh v, indegree_append, settling.counted v, Nat.add_comm]
    simp [indegree, List.count, List.countP_map, Function.comp_def]

theorem Settling.run (closed : ∀ e ∈ edges, e.2 ∈ ids) (n : Nat) :
    ∀ {walked : List (String × String)} {s : Sweep}, Settling ids edges walked s →
      ∃ walked, Settling ids edges walked (Sweep.run edges n s) := by
  induction n with
  | zero => intro walked s settling; exact ⟨walked, settling⟩
  | succ n ih =>
      intro walked s settling
      cases first : s.queue with
      | nil => exact ⟨walked, by rwa [run_of_empty first]⟩
      | cons u queue =>
          obtain ⟨walked, next⟩ := settling.take closed first
          exact ih next

end Invariant

section Ends

variable {ids : List String}

theorem tierOf_start (edges : List (String × String)) (v : String) :
    (start ids edges).tierOf v = 0 := by
  simp only [Sweep.tierOf, start]
  cases found : List.lookup v ((ids.filter fun id => indegree edges id == 0).map
      fun id => (id, 0)).reverse with
  | none => rfl
  | some t =>
      obtain ⟨front, back, split, _⟩ := List.lookup_eq_some_iff.mp found
      have member : (v, t) ∈ ((ids.filter fun id => indegree edges id == 0).map
          fun id => (id, 0)).reverse := by simp [split]
      simp only [List.mem_reverse, List.mem_map, Prod.mk.injEq] at member
      obtain ⟨_, _, _, rfl⟩ := member
      rfl

theorem sound_start (distinct : ids.Nodup) (edges : List (String × String)) :
    Sound ids edges [] (start ids edges) := by
  constructor
  case followed => rfl
  case sources => exact nofun
  case nodup => exact distinct.filter _
  case taken =>
    intro v
    simp only [start, List.nil_append, List.mem_filter, beq_iff_eq]
    simp [indegree, eq_comm]
  case deeper => exact nofun
  case reached =>
    intro v
    simp only [start, List.lookup_isSome_iff, List.mem_reverse, List.mem_map, List.mem_filter,
      beq_iff_eq, List.not_mem_nil, false_and, exists_false, or_false]
    constructor
    · rintro ⟨_, ⟨id, source, rfl⟩, same⟩
      exact same ▸ source
    · intro source
      exact ⟨(v, 0), ⟨v, source, rfl⟩, rfl⟩
  case attained => exact fun v => Or.inl (tierOf_start edges v)
  case deepest_le => exact nofun
  case deepest_attained => exact Or.inl rfl

theorem settling_start (distinct : ids.Nodup) (edges : List (String × String)) :
    Settling ids edges [] (start ids edges) := by
  refine ⟨sound_start distinct edges, ?complete, ?counted⟩
  case complete => simp [start]
  case counted => simp [start, entering, indegree]

/-- The walk to its end has nothing left to take up. -/
theorem settling_finish (distinct : ids.Nodup) (edges : List (String × String)) :
    ∃ walked, Settling ids (known ids edges) walked (finish ids edges) ∧
      (finish ids edges).queue = [] := by
  obtain ⟨walked, settling⟩ := (settling_start distinct (known ids edges)).run
    (fun e member => (mem_known.mp member).2.2) ids.length
  exact ⟨walked, settling, queue_finish ids edges⟩

end Ends

end PromptCanvas.Sweep
