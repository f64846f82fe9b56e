import PromptCanvas.Proofs.Json.Overruns

/-! # Runs of digits

A text at which the reader stops for an integer has all of its digits in a row
(`Stops.written`), behind no further digit and no `u`, so that none of them belongs to an
escape. -/

set_option autoImplicit false

namespace PromptCanvas.Json

open Binary64.textWith (sign)

/-- The text has that many digits in a row, more than an integer may have. -/
def Overlong.StandsIn (n : Overlong) (cs : List Char) : Prop :=
  digitLimit < n.digits ∧
    ∃ digits, digits <:+: cs ∧ digits.all Char.isDigit = true ∧ digits.length = n.digits

theorem Overlong.StandsIn.mono {n : Overlong} {cs text : List Char} (stands : n.StandsIn cs)
    (part : cs <:+: text) : n.StandsIn text := by
  obtain ⟨long, digits, inside, all, length⟩ := stands
  exact ⟨long, digits, inside.trans part, all, length⟩

theorem Overlong.StandsIn.lt_length {n : Overlong} {cs : List Char} (stands : n.StandsIn cs) :
    digitLimit < cs.length := by
  obtain ⟨long, digits, inside, -, length⟩ := stands
  have short := inside.length_le
  omega

section Places

variable {cs front : List Char}

/-- No digits of an escape and no other digits can go on behind such a text. -/
def BeforeNumber (cs : List Char) : Prop := ∀ c ∈ cs.getLast?, c ≠ 'u' ∧ c.isDigit = false

theorem BeforeNumber.append (before : BeforeNumber front) (after : BeforeNumber cs) :
    BeforeNumber (front ++ cs) := by
  intro c last
  rw [List.getLast?_append, Option.mem_def, Option.or_eq_some_iff] at last
  rcases last with inside | ⟨-, outside⟩
  · exact after c inside
  · exact before c outside

theorem beforeNumber_of_forall (all : ∀ c ∈ cs, c ≠ 'u' ∧ c.isDigit = false) : BeforeNumber cs :=
  fun c last => all c (List.mem_of_getLast? last)

theorem Spaces.beforeNumber {gap : List Char} (spaces : Spaces gap) : BeforeNumber gap := by
  refine beforeNumber_of_forall fun c member => ?_
  have space := spaces c member
  simp only [isJsonSpace, Bool.or_eq_true, decide_eq_true_iff] at space
  rcases space with ((rfl | rfl) | rfl) | rfl <;> decide

theorem beforeNumber_mark {m : Char} (mark : m ∈ ['[', '\x7b', ',', ':']) (front : List Char)
    {gap : List Char} (spaces : Spaces gap) : BeforeNumber (front ++ m :: gap) := by
  have single : BeforeNumber [m] := by
    refine beforeNumber_of_forall (List.forall_mem_singleton.mpr ?_)
    simp only [List.mem_cons, List.not_mem_nil, or_false] at mark
    rcases mark with rfl | rfl | rfl | rfl <;> decide
  intro c last
  rw [List.getLast?_append_of_ne_nil _ (List.cons_ne_nil m gap)] at last
  exact single.append spaces.beforeNumber c last

end Places

section Integers

variable {strict : Bool} {n : Overlong} {cs : List Char}

/-- The digits stand in the text where a number can begin. -/
def Overlong.Written (n : Overlong) (cs : List Char) : Prop :=
  ∃ front digits back, cs = front ++ (digits ++ back) ∧ BeforeNumber front ∧
    digits.all Char.isDigit = true ∧ digits.length = n.digits ∧ digitLimit < n.digits

theorem Overlong.Written.stands (written : n.Written cs) : n.StandsIn cs := by
  obtain ⟨front, digits, back, rfl, -, all, length, long⟩ := written
  exact ⟨long, digits, (List.infix_append front digits back).trans (by simp), all, length⟩

theorem Overlong.Written.append {front : List Char} (written : n.Written cs)
    (before : BeforeNumber front) (back : List Char) : n.Written (front ++ (cs ++ back)) := by
  obtain ⟨first, digits, last, rfl, place, number⟩ := written
  exact ⟨front ++ first, digits, last ++ back, by simp, before.append place, number⟩

theorem Overlong.Written.behind {front : List Char} (written : n.Written cs)
    (before : BeforeNumber front) : n.Written (front ++ cs) := by
  have more := written.append before []
  rwa [List.append_nil] at more

mutual

theorem Overruns.written : ∀ {cs : List Char}, Overruns strict n cs → n.Written cs
  | _, @Overruns.number _ _ negative whole numeral long => by
      obtain ⟨more, rfl⟩ := long_of_integer long
      refine ⟨sign negative, whole, [], by simp, beforeNumber_of_forall ?_, all_whole numeral, rfl,
        more⟩
      cases negative with
      | false => exact nofun
      | true => exact List.forall_mem_singleton.mpr (by decide)
  | _, .array spaces items =>
      items.written.behind (beforeNumber_mark (m := '[') (by decide) [] spaces)
  | _, .object spaces members =>
      members.written.behind (beforeNumber_mark (m := '\x7b') (by decide) [] spaces)

theorem ItemsOverrun.written : ∀ {cs : List Char}, ItemsOverrun strict n cs → n.Written cs
  | _, .here value => value.written
  | _, @ItemsOverrun.later _ _ _ cs gap next others _ _ nextSpaces rest => by
      have text : cs ++ (gap ++ ',' :: (next ++ others)) = (cs ++ gap ++ ',' :: next) ++ others := by
        simp
      rw [text]
      exact rest.written.behind (beforeNumber_mark (by decide) _ nextSpaces)

theorem MembersOverrun.written : ∀ {cs : List Char}, MembersOverrun strict n cs → n.Written cs
  | _, @MembersOverrun.here _ _ _ name cs before after _ _ afterSpaces value => by
      have text : name ++ (before ++ ':' :: (after ++ cs)) =
          (name ++ before ++ ':' :: after) ++ cs := by
        simp
      rw [text]
      exact value.written.behind (beforeNumber_mark (by decide) _ afterSpaces)
  | _, @MembersOverrun.later _ _ _ cs gap next others _ _ nextSpaces rest => by
      have text : cs ++ (gap ++ ',' :: (next ++ others)) = (cs ++ gap ++ ',' :: next) ++ others := by
        simp
      rw [text]
      exact rest.written.behind (beforeNumber_mark (by decide) _ nextSpaces)

end

theorem Stops.written (stops : Stops strict n cs) : n.Written cs := by
  obtain ⟨before, front, rest, spaces, overrun, -, rfl⟩ := stops
  exact overrun.written.append spaces.beforeNumber rest

end Integers

end PromptCanvas.Json
