import Mathlib.Data.Bool.AllAny
import PromptCanvas.Import.Document
import PromptCanvas.Proofs.Json.Grammar

/-! # Inside and outside of strings

`Zone`: where in a JSON text the next character stands, told from the characters before it.
Every text that is read ends outside of its strings (`after_of_read`), so a text that is broken
by an escape that there is not cannot be read, whatever stands around it (`read_of_broken`). -/

set_option autoImplicit false

namespace PromptCanvas.Json

open Document (isEscapable)

/-- Outside or inside of a string, behind the backslash of an escape, before its last digits
(one more than `left`), or behind something that no JSON text holds. -/
inductive Zone where
  | outside
  | inside
  | escaped
  | digits (left : Nat)
  | broken
  deriving DecidableEq

namespace Zone

section Steps

/-- The zone behind a character. Outside of its strings a JSON text is ASCII and has no
backslash. -/
def next : Zone → Char → Zone
  | .outside, c =>
      if c = '"' then .inside else if c = '\\' || 0x80 ≤ c.toNat then .broken else .outside
  | .inside, c => if c = '"' then .outside else if c = '\\' then .escaped else .inside
  | .escaped, c =>
      if c = 'u' then .digits 3 else if isEscapable c then .inside else .broken
  | .digits left, c =>
      if (Text.hexValue? c).isNone then .broken
      else
        match left with
        | 0 => .inside
        | more + 1 => .digits more
  | .broken, _ => .broken

def after (z : Zone) (cs : List Char) : Zone := cs.foldl next z

variable {z : Zone}

@[simp]
theorem after_nil (z : Zone) : z.after [] = z := rfl

@[simp]
theorem after_cons (z : Zone) (c : Char) (cs : List Char) :
    z.after (c :: cs) = (z.next c).after cs := rfl

@[simp]
theorem after_append (z : Zone) (front back : List Char) :
    z.after (front ++ back) = (z.after front).after back := List.foldl_append

theorem after_broken (cs : List Char) : broken.after cs = .broken := by
  induction cs with
  | nil => rfl
  | cons c cs ih => exact ih

theorem next_ne_broken {cs : List Char} {c : Char} (whole : z.after (c :: cs) ≠ .broken) :
    z.next c ≠ .broken := by
  intro same
  rw [after_cons, same, after_broken] at whole
  exact whole rfl

theorem next_eq_escaped_iff {c : Char} : z.next c = .escaped ↔ z = .inside ∧ c = '\\' := by
  cases z with
  | outside => simp only [next]; grind
  | inside => simp only [next]; grind
  | escaped => simp only [next]; grind
  | digits left => cases left <;> simp only [next] <;> grind
  | broken => simp [next]

def IsBare (c : Char) : Prop := outside.next c = .outside

instance (c : Char) : Decidable (IsBare c) :=
  inferInstanceAs (Decidable (outside.next c = .outside))

theorem after_bare {cs : List Char} (bare : ∀ c ∈ cs, IsBare c) : outside.after cs = .outside := by
  induction cs with
  | nil => rfl
  | cons c cs ih =>
      obtain ⟨stays, rest⟩ := List.forall_mem_cons.mp bare
      rw [after_cons, stays, ih rest]

end Steps

end Zone

section Texts

open Zone (outside inside)

variable {strict : Bool}

theorem Spaces.isBare {gap : List Char} (spaces : Spaces gap) : ∀ c ∈ gap, Zone.IsBare c := by
  intro c member
  have space := spaces c member
  simp only [isJsonSpace, Bool.or_eq_true, decide_eq_true_iff] at space
  rcases space with ((rfl | rfl) | rfl) | rfl <;> decide

theorem after_spaces {gap : List Char} (spaces : Spaces gap) : outside.after gap = .outside :=
  Zone.after_bare spaces.isBare

theorem isBare_of_isDigit {c : Char} (digit : c.isDigit = true) : Zone.IsBare c := by
  have bounds := Numeral.toNat_of_isDigit digit
  have noQuote : c ≠ '"' := by
    rintro rfl
    cases digit
  have noEscape : c ≠ '\\' := by
    rintro rfl
    cases digit
  have small : ¬ 0x80 ≤ c.toNat := by omega
  simp [Zone.IsBare, Zone.next, noQuote, noEscape, small]

theorem SpellsScalar.isBare {v : Json} {cs : List Char} (spelled : SpellsScalar v cs) :
    ∀ c ∈ cs, Zone.IsBare c :=
  spelled.forall_mem (fun _ => isBare_of_isDigit) (List.all_iff_forall_prop.mp (by decide))

theorem isEscapable_of_simpleEscape? {e plain : Char} (escape : simpleEscape? e = some plain) :
    isEscapable e = true ∧ e ≠ 'u' := by
  unfold simpleEscape? at escape
  split at escape
  any_goals decide
  cases escape

theorem SpellsUnits.after {units : List Nat} {cs : List Char}
    (spelled : SpellsUnits strict units cs) : inside.after cs = .inside := by
  induction spelled with
  | nil => rfl
  | plain noQuote noEscape _ _ ih =>
      simpa [Zone.next, noQuote, noEscape] using ih
  | simple escape _ ih =>
      obtain ⟨escapable, noUnicode⟩ := isEscapable_of_simpleEscape? escape
      simpa [Zone.next, escapable, noUnicode] using ih
  | unicode digits _ ih =>
      have hexadecimal := Text.isSome_hexValue?_of_hexNumber? digits
      simp only [List.forall_mem_cons, Option.isSome_iff_ne_none] at hexadecimal
      simpa [Zone.next, hexadecimal] using ih

theorem SpellsString.after {s : String} {cs : List Char} (spelled : SpellsString strict s cs) :
    outside.after cs = .outside := by
  cases spelled with
  | marked spelled =>
      have first : outside.next '"' = .inside := by decide
      have last : inside.next '"' = .outside := by decide
      rw [Zone.after_cons, first, Zone.after_append, spelled.after, Zone.after_cons, last,
        Zone.after_nil]

theorem next_mark {m : Char} (mark : m ∈ ['[', ']', '\x7b', '\x7d', ',', ':']) :
    outside.next m = .outside := by
  simp only [List.mem_cons, List.not_mem_nil, or_false] at mark
  rcases mark with rfl | rfl | rfl | rfl | rfl | rfl <;> rfl

mutual

/-- What is spelled ends outside of its strings. -/
theorem Spells.after : ∀ {v : Json} {cs : List Char}, Spells strict v cs →
    outside.after cs = .outside
  | _, _, .scalar spelled => Zone.after_bare spelled.isBare
  | _, _, .string spelled => spelled.after
  | _, _, .noItems spaces => by
      simp [next_mark, after_spaces spaces]
  | _, _, .array spaces spelled => by
      simp [next_mark, after_spaces spaces, spelled.after]
  | _, _, .noFields spaces => by
      simp [next_mark, after_spaces spaces]
  | _, _, .object spaces spelled => by
      simp [next_mark, after_spaces spaces, spelled.after]

theorem SpellsItems.after : ∀ {vs : List Json} {cs : List Char}, SpellsItems strict vs cs →
    outside.after cs = .outside
  | _, _, .last spelled spaces => by
      simp [spelled.after, after_spaces spaces]
  | _, _, .more spelled spaces nextSpaces others => by
      simp [next_mark, spelled.after, after_spaces spaces, after_spaces nextSpaces, others.after]

theorem SpellsMember.after : ∀ {field : String × Json} {cs : List Char},
    SpellsMember strict field cs → outside.after cs = .outside
  | _, _, .colon named before after spelled => by
      simp [next_mark, named.after, after_spaces before, after_spaces after, spelled.after]

theorem SpellsMembers.after : ∀ {fields : List (String × Json)} {cs : List Char},
    SpellsMembers strict fields cs → outside.after cs = .outside
  | _, _, .last spelled spaces => by
      simp [spelled.after, after_spaces spaces]
  | _, _, .more spelled spaces nextSpaces others => by
      simp [next_mark, spelled.after, after_spaces spaces, after_spaces nextSpaces, others.after]

end

theorem after_of_read {cs : List Char} {v : Json} (reading : read strict cs = .ok v) :
    outside.after cs = .outside := by
  obtain ⟨before, text, after, spaces, afterSpaces, spelled, rfl⟩ :=
    (read_eq_ok_iff strict cs v).mp reading
  simp [after_spaces spaces, after_spaces afterSpaces, spelled.after]

theorem read_of_broken {cs : List Char} (broken : outside.after cs = .broken) :
    ∃ fault, read strict cs = .error fault := by
  cases reading : read strict cs with
  | error fault => exact ⟨fault, rfl⟩
  | ok v =>
      have whole := after_of_read reading
      rw [broken] at whole
      cases whole

theorem load_of_read {cs : List Char} {v : Json} (reading : read true cs = .ok v) :
    load cs = .ok v := by
  unfold load
  split
  · next rest =>
      have broken : outside.after ('\ufeff' :: rest) = .broken := Zone.after_broken rest
      rw [after_of_read reading] at broken
      cases broken
  · exact reading

end Texts

end PromptCanvas.Json
