import PromptCanvas.Proofs.Json.Leading
import PromptCanvas.Proofs.Json.Zones

/-! # Texts that derail

Two texts may be alike up to a place inside of a string, where one of them has an escape that
there is not (`Derails`).  If the other is read, nothing stops the reader before that place, so
that the text is at fault there and has no integer that is too long before
(`Derails.outcome_eq`). -/

set_option autoImplicit false

namespace PromptCanvas.Json

open Binary64.textWith (sign)

section Prefixes

open Zone (outside inside)

variable {strict : Bool} {n : Overlong} {cs front other : List Char}

mutual

theorem Overruns.after : ∀ {cs : List Char}, Overruns strict n cs → outside.after cs = .outside
  | _, @Overruns.number _ _ negative whole numeral _ => by
      have digits : ∀ c ∈ whole, Zone.IsBare c := fun c member =>
        isBare_of_isDigit (List.all_eq_true.mp (all_whole numeral) c member)
      have signed : ∀ c ∈ sign negative, Zone.IsBare c := by
        cases negative with
        | false => exact nofun
        | true => exact List.forall_mem_singleton.mpr (by decide)
      exact Zone.after_bare (List.forall_mem_append.mpr ⟨signed, digits⟩)
  | _, .array spaces items => by
      simp [next_mark, after_spaces spaces, items.after]
  | _, .object spaces members => by
      simp [next_mark, after_spaces spaces, members.after]

theorem ItemsOverrun.after : ∀ {cs : List Char}, ItemsOverrun strict n cs →
    outside.after cs = .outside
  | _, .here value => value.after
  | _, .later spelled spaces nextSpaces rest => by
      simp [next_mark, spelled.after, after_spaces spaces, after_spaces nextSpaces, rest.after]

theorem MembersOverrun.after : ∀ {cs : List Char}, MembersOverrun strict n cs →
    outside.after cs = .outside
  | _, .here named before after value => by
      simp [next_mark, named.after, after_spaces before, after_spaces after, value.after]
  | _, .later spelled spaces nextSpaces rest => by
      simp [next_mark, spelled.after, after_spaces spaces, after_spaces nextSpaces, rest.after]

end

theorem quote_mem_of_inside (within : outside.after cs = .inside) : '"' ∈ cs := by
  induction cs with
  | nil => cases within
  | cons c cs ih =>
      by_cases quote : c = '"'
      · exact quote ▸ List.mem_cons_self
      · rw [Zone.after_cons, Zone.next, if_neg quote] at within
        split at within
        · rw [Zone.after_broken] at within
          cases within
        · exact List.mem_cons_of_mem c (ih within)

/-- What stops a reading before the end of a text that ends inside of a string does not
depend on what follows. -/
theorem Stops.of_inside {back : List Char} (stops : Stops strict n (front ++ back))
    (within : outside.after front = .inside)
    (never : ∀ more, more <+: back → inside.after more ≠ .outside) (other : List Char) :
    Stops strict n (front ++ other) := by
  obtain ⟨before, overrun, rest, spaces, overruns, ends, text⟩ := stops
  have left : outside.after (before ++ overrun) = .outside := by
    rw [Zone.after_append, after_spaces spaces, overruns.after]
  rw [← List.append_assoc] at text
  rcases List.append_eq_append_iff.mp text with ⟨more, parted, rfl⟩ | ⟨gap, rfl, rfl⟩
  · rw [parted, Zone.after_append, within] at left
    exact absurd left (never more (List.prefix_append more rest))
  · rw [Zone.after_append, left] at within
    obtain ⟨u, w, rfl⟩ := List.append_of_mem (quote_mem_of_inside within)
    rw [List.append_assoc, List.cons_append] at ends
    refine ⟨before, overrun, u ++ '"' :: (w ++ other), spaces, overruns,
      (integerEnds_append_iff (by decide)).mpr ((integerEnds_append_iff (by decide)).mp ends),
      by simp⟩

variable {z : Zone}

/-- The texts part inside of a string, where the first has an escape that there is not. -/
def Derails (z : Zone) (cs other : List Char) : Prop :=
  ∃ front d back more, cs = front ++ '\\' :: d :: back ∧ other = front ++ more ∧
    z.after front = .inside ∧ Document.isEscapable d = false

theorem Derails.behind (derails : Derails (z.after front) cs other) :
    Derails z (front ++ cs) (front ++ other) := by
  obtain ⟨common, d, back, more, rfl, rfl, within, foreign⟩ := derails
  exact ⟨front ++ common, d, back, more, (List.append_assoc ..).symm,
    (List.append_assoc ..).symm, by rw [Zone.after_append, within], foreign⟩

theorem Derails.append (derails : Derails z cs other) (after afterwards : List Char) :
    Derails z (cs ++ after) (other ++ afterwards) := by
  obtain ⟨common, d, back, more, rfl, rfl, within, foreign⟩ := derails
  exact ⟨common, d, back ++ after, more ++ afterwards, by simp, by simp, within, foreign⟩

theorem after_foreign {d : Char} (foreign : Document.isEscapable d = false) (back : List Char) :
    inside.after ('\\' :: d :: back) = .broken := by
  have noUnicode : d ≠ 'u' := by
    rintro rfl
    cases foreign
  have escaped : inside.next '\\' = .escaped := by decide
  have broken : Zone.escaped.next d = .broken := by
    simp [Zone.next, noUnicode, foreign]
  rw [Zone.after_cons, escaped, Zone.after_cons, broken, Zone.after_broken]

theorem Derails.broken (derails : Derails z cs other) : z.after cs = .broken := by
  obtain ⟨front, d, back, more, rfl, -, within, foreign⟩ := derails
  rw [Zone.after_append, within, after_foreign foreign]

/-- Beside the beginning of a text that is read a text that derails is at fault. -/
theorem Derails.outcome_of_beginning {v : Json} {afterwards : List Char}
    (derails : Derails outside cs other) (reading : read strict (other ++ afterwards) = .ok v) :
    Document.outcome (read strict cs) = .ok none := by
  have left := derails.broken
  obtain ⟨fault, failed⟩ : ∃ fault, read strict cs = .error fault := read_of_broken left
  rw [failed, Document.outcome]
  cases overrun : fault.overlong? with
  | none => rfl
  | some n =>
      obtain ⟨front, d, back, more, rfl, rfl, within, foreign⟩ := derails
      have never : ∀ begun, begun <+: '\\' :: d :: back → inside.after begun ≠ .outside := by
        rintro (_ | ⟨c, _ | ⟨e, begun⟩⟩) begins
        · exact nofun
        · rw [(List.cons_prefix_cons.mp begins).1]
          decide
        · obtain ⟨rfl, rest⟩ := List.cons_prefix_cons.mp begins
          rw [(List.cons_prefix_cons.mp rest).1, after_foreign foreign]
          exact nofun
      have stops := stops_iff.mp ⟨fault, failed, overrun⟩
      obtain ⟨_, other, -⟩ := stops_iff.mpr (stops.of_inside within never (more ++ afterwards))
      rw [← List.append_assoc, reading] at other
      cases other

theorem Derails.outcome_eq {v : Json} (derails : Derails outside cs other)
    (reading : read strict other = .ok v) : Document.outcome (read strict cs) = .ok none := by
  rw [← List.append_nil other] at reading
  exact derails.outcome_of_beginning reading

end Prefixes

end PromptCanvas.Json
