import PromptCanvas.Proofs.Json.Grammar

/-! # Beginnings of JSON texts

What is spelled strictly is spelled without strictness as well (`Spells.lenient`).  No value is
spelled by a proper beginning of a text that spells one (`Spells.eq_nil_of_append`), and which
value it is can be told in part from its first character (`Spells.braced`). -/

set_option autoImplicit false

namespace PromptCanvas.Json

section Leniency

variable {strict : Bool}

theorem SpellsUnits.lenient {units : List Nat} {cs : List Char}
    (spelled : SpellsUnits true units cs) : SpellsUnits strict units cs := by
  induction spelled with
  | nil => exact .nil
  | plain noQuote noEscape allowed _ ih =>
      rw [Bool.true_and] at allowed
      exact .plain noQuote noEscape (by rw [allowed, Bool.and_false]) ih
  | simple escape _ ih => exact .simple escape ih
  | unicode digits _ ih => exact .unicode digits ih

theorem SpellsString.lenient {s : String} {cs : List Char} (spelled : SpellsString true s cs) :
    SpellsString strict s cs := by
  cases spelled with
  | marked units => exact .marked units.lenient

mutual

theorem Spells.lenient : ∀ {v : Json} {cs : List Char}, Spells true v cs → Spells strict v cs
  | _, _, .scalar spelled => .scalar spelled
  | _, _, .string spelled => .string spelled.lenient
  | _, _, .noItems spaces => .noItems spaces
  | _, _, .array spaces spelled => .array spaces spelled.lenient
  | _, _, .noFields spaces => .noFields spaces
  | _, _, .object spaces spelled => .object spaces spelled.lenient

theorem SpellsItems.lenient : ∀ {vs : List Json} {cs : List Char}, SpellsItems true vs cs →
    SpellsItems strict vs cs
  | _, _, .last spelled spaces => .last spelled.lenient spaces
  | _, _, .more spelled spaces nextSpaces others =>
      .more spelled.lenient spaces nextSpaces others.lenient

theorem SpellsMember.lenient : ∀ {field : String × Json} {cs : List Char},
    SpellsMember true field cs → SpellsMember strict field cs
  | _, _, .colon named before after spelled =>
      .colon named.lenient before after spelled.lenient

theorem SpellsMembers.lenient : ∀ {fields : List (String × Json)} {cs : List Char},
    SpellsMembers true fields cs → SpellsMembers strict fields cs
  | _, _, .last spelled spaces => .last spelled.lenient spaces
  | _, _, .more spelled spaces nextSpaces others =>
      .more spelled.lenient spaces nextSpaces others.lenient

end

end Leniency

section Beginnings

variable {strict : Bool} {v w : Json} {cs rest : List Char}

/-- A value ends where the reader stops, so that no longer text spells one. -/
theorem Spells.eq_nil_of_append (front : Spells strict v cs) (ends : NumberEnds rest)
    (whole : Spells strict w (cs ++ rest)) : rest = [] := by
  have complete : CompleteAt strict (2 * (cs ++ rest).length) := completeAt _
  have short : 2 * cs.length ≤ 2 * (cs ++ rest).length := by
    rw [List.length_append]
    omega
  have stops := complete.value front short rest ends
  have goes := complete.value whole (Nat.le_refl _) [] numberEnds_nil
  rw [List.append_nil, stops] at goes
  exact (Prod.mk.inj (Except.ok.inj goes)).2

theorem Spells.braced (spelled : Spells strict v cs) (opening : cs.head? = some '\x7b') :
    cs.getLast? = some '\x7d' ∧ ∃ fields, v = .object fields := by
  cases spelled with
  | scalar spelled =>
      have other : ∀ c ∈ cs, c ≠ '\x7b' := by
        refine spelled.forall_mem ?_ (List.all_iff_forall_prop.mp (by decide))
        rintro _ digit rfl
        cases digit
      exact absurd rfl (other _ (List.mem_of_mem_head? opening))
  | string spelled =>
      cases spelled
      cases opening
  | noItems | array => cases opening
  | noFields =>
      rw [← List.cons_append]
      exact ⟨List.getLast?_concat, _, rfl⟩
  | object =>
      rw [← List.append_assoc, ← List.cons_append]
      exact ⟨List.getLast?_concat, _, rfl⟩

theorem read_spaced {before after : List Char} (spaces : Spaces before)
    (afterSpaces : Spaces after) (reading : read strict cs = .ok v) :
    read strict (before ++ (cs ++ after)) = .ok v := by
  obtain ⟨front, text, back, frontSpaces, backSpaces, spelled, rfl⟩ :=
    (read_eq_ok_iff strict cs v).mp reading
  refine (read_eq_ok_iff strict _ v).mpr ⟨before ++ front, text, back ++ after, ?_, ?_, spelled, ?_⟩
  · exact List.forall_mem_append.mpr ⟨spaces, frontSpaces⟩
  · exact List.forall_mem_append.mpr ⟨backSpaces, afterSpaces⟩
  · simp

theorem isObject_of_integer {negative : Bool} {digits : List Char}
    (value : integer negative digits = .ok v) : v.isObject = false := by
  unfold integer at value
  split at value <;> cases value
  rfl

theorem isObject_of_numberOf {negative : Bool} {whole fraction exponent : List Char}
    (value : numberOf negative whole fraction exponent = .ok v) : v.isObject = false := by
  unfold numberOf afterWhole at value
  dsimp only at value
  split at value
  · cases value
    rfl
  · split at value
    · exact isObject_of_integer value
    · cases value
      rfl

theorem Spells.mem_of_isObject (spelled : Spells strict v cs) (object : v.isObject = true) :
    '\x7b' ∈ cs := by
  cases spelled with
  | scalar spelled =>
      cases spelled with
      | literal listed =>
          simp only [literals, List.mem_cons, Prod.mk.injEq, List.not_mem_nil, or_false] at listed
          rcases listed with ⟨-, rfl⟩ | ⟨-, rfl⟩ | ⟨-, rfl⟩ | ⟨-, rfl⟩ | ⟨-, rfl⟩ | ⟨-, rfl⟩ <;>
            cases object
      | number _ _ _ _ value =>
          rw [isObject_of_numberOf value] at object
          cases object
  | string | noItems | array => cases object
  | noFields | object => exact List.mem_cons_self

end Beginnings

end PromptCanvas.Json
