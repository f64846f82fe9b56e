import PromptCanvas.Proofs.Json.Overruns
import PromptCanvas.Proofs.Text.Searching

/-! # Leading integers

Where an integer ends is told up to the first character that no number has
(`integerEnds_append_iff`).  So a text in which no array and no object begins stops the reader
exactly if it leads with an integer that is too long, and what follows such a character does not
matter (`LeadsLong.append_iff`). -/

set_option autoImplicit false

namespace PromptCanvas.Json

open Binary64.textWith (sign)
open Numeral (Whole)

section Ends

variable {cs front : List Char}

/-- What may stand between an integer and the next digit of the same number. -/
def digitMarks : List (List Char) :=
  [] :: ['.'] :: ['e', 'E'].flatMap fun mark => [[], ['+'], ['-']].map fun sign => mark :: sign

theorem mem_digitMarks {mark : List Char} : mark ∈ digitMarks ↔ mark = [] ∨ mark = ['.'] ∨
    ∃ e sign, (e = 'e' ∨ e = 'E') ∧ (sign = [] ∨ sign = ['+'] ∨ sign = ['-']) ∧
      mark = e :: sign := by
  simp only [digitMarks, List.mem_cons, List.mem_flatMap, List.mem_map, List.not_mem_nil, or_false]
  constructor
  · rintro (rfl | rfl | ⟨e, letter, sign, signed, rfl⟩)
    · exact .inl rfl
    · exact .inr (.inl rfl)
    · exact .inr (.inr ⟨e, sign, letter, signed, rfl⟩)
  · rintro (rfl | rfl | ⟨e, sign, letter, signed, rfl⟩)
    · exact .inl rfl
    · exact .inr (.inl rfl)
    · exact .inr (.inr ⟨e, letter, sign, signed, rfl⟩)

theorem exists_digits {d : Char} (digit : d.isDigit = true) (more : List Char) :
    ∃ ds rest, d :: more = ds ++ rest ∧ ds ≠ [] ∧ ds.all Char.isDigit = true ∧
      Numeral.NoDigitHead rest := by
  obtain ⟨ds, rest, -, text, all, stop⟩ := span_isDigit (d :: more)
  refine ⟨ds, rest, text, ?_, all, stop⟩
  rintro rfl
  have last := stop d (by rw [← List.nil_append rest, ← text]; rfl)
  rw [digit] at last
  cases last

theorem integerEnds_iff : IntegerEnds cs ↔
    ∀ mark ∈ digitMarks, ∀ d : Char, d.isDigit = true → ¬ mark ++ [d] <+: cs := by
  constructor
  · rintro ⟨noDigit, noFraction, noExponent⟩ mark listed d digit ⟨more, rfl⟩
    rw [List.append_assoc, List.singleton_append] at *
    obtain ⟨ds, rest, text, nonempty, all, stop⟩ := exists_digits digit more
    rcases mem_digitMarks.mp listed with rfl | rfl | ⟨e, sign, letter, signed, rfl⟩
    · exact absurd (noDigit d rfl) (by rw [digit]; decide)
    · rw [text, ← List.append_assoc, List.singleton_append,
        fractionDigits_append nonempty all stop] at noFraction
      exact nonempty (Prod.mk.inj noFraction).1
    · have power : Power (e :: (sign ++ ds)) := .marked letter signed nonempty all
      obtain ⟨n, scanned⟩ := power.exponentPart?_append (List.cons_ne_nil _ _)
      have read := scanned rest stop
      rw [List.cons_append, List.append_assoc, ← text] at read
      rw [List.cons_append, read] at noExponent
      cases noExponent
  · intro ends
    refine ⟨fun c head => ?_, ?_, ?_⟩
    · obtain ⟨more, rfl⟩ := List.head?_eq_some_iff.mp head
      rw [← Bool.not_eq_true]
      exact fun digit => ends [] (by decide) c digit ⟨more, rfl⟩
    · obtain ⟨fraction, rest, point, text, cut⟩ := fraction_fractionDigits cs
      cases point with
      | absent => rw [cut, text]; rfl
      | @digits ds nonempty all =>
          obtain ⟨d, more, rfl⟩ := List.exists_cons_of_ne_nil nonempty
          rw [List.all_cons, Bool.and_eq_true] at all
          exact absurd ⟨more ++ rest, by rw [text]; rfl⟩ (ends ['.'] (by decide) d all.1)
    · cases found : exponentPart? cs with
      | none => rfl
      | some read =>
          obtain ⟨exponent, power, nonempty, rfl, stop⟩ := power_of_exponentPart? found
          cases power with
          | absent => exact absurd rfl nonempty
          | @marked e sign ds letter signed digits all =>
              obtain ⟨d, more, rfl⟩ := List.exists_cons_of_ne_nil digits
              rw [List.all_cons, Bool.and_eq_true] at all
              have listed := mem_digitMarks.mpr (.inr (.inr ⟨e, sign, letter, signed, rfl⟩))
              exact absurd ⟨more ++ read.2, by simp⟩ (ends (e :: sign) listed d all.1)

def BreaksNumbers (c : Char) : Prop := c.isDigit = false ∧ c ∉ ['.', 'e', 'E', '+', '-']

instance (c : Char) : Decidable (BreaksNumbers c) :=
  inferInstanceAs (Decidable (c.isDigit = false ∧ c ∉ ['.', 'e', 'E', '+', '-']))

theorem BreaksNumbers.numberEnds {c : Char} (breaks : BreaksNumbers c) (more : List Char) :
    NumberEnds (c :: more) := by
  rintro d ⟨⟩
  refine ⟨breaks.1, ?_, ?_, ?_⟩ <;>
    · rintro rfl
      exact absurd breaks (by decide)

/-- Whether an integer ends is told up to the first character that no number has. -/
theorem integerEnds_append_iff {c : Char} (breaks : BreaksNumbers c) {back : List Char} :
    IntegerEnds (front ++ c :: back) ↔ IntegerEnds front := by
  obtain ⟨foreign, noMark⟩ := breaks
  rw [integerEnds_iff, integerEnds_iff]
  refine forall₂_congr fun mark listed => forall₂_congr fun d digit => not_congr ⟨?_, ?_⟩
  · refine Text.prefix_of_prefix_append front fun member => ?_
    rcases List.mem_append.mp member with inside | last
    · have all : ∀ mark ∈ digitMarks, mark ⊆ ['.', 'e', 'E', '+', '-'] := by decide
      exact noMark (all mark listed inside)
    · rw [List.mem_singleton.mp last, digit] at foreign
      cases foreign
  · exact fun begins => begins.trans (List.prefix_append _ _)

end Ends

section LeadsLong

variable {strict : Bool} {n : Overlong} {cs front back : List Char} {c : Char}

/-- The text begins with an integer that is too long. -/
def LeadsLong (n : Overlong) (cs : List Char) : Prop :=
  ∃ negative whole rest, Whole whole ∧ integer negative whole = .error n ∧ IntegerEnds rest ∧
    cs = sign negative ++ (whole ++ rest)

theorem LeadsLong.stops (leads : LeadsLong n cs) : Stops strict n cs := by
  obtain ⟨negative, whole, rest, numeral, long, ends, rfl⟩ := leads
  exact ⟨[], sign negative ++ whole, rest, List.forall_mem_nil _, .number numeral long, ends,
    by simp⟩

theorem Overruns.leads (overrun : Overruns strict n front) (ends : IntegerEnds back)
    (other : ∀ c ∈ front.head?, c ≠ '[' ∧ c ≠ '\x7b') : LeadsLong n (front ++ back) := by
  cases overrun with
  | number numeral long => exact ⟨_, _, back, numeral, long, ends, List.append_assoc ..⟩
  | array => exact absurd rfl (other '[' rfl).1
  | object => exact absurd rfl (other '\x7b' rfl).2

theorem Overruns.ne_nil (overrun : Overruns strict n front) : front ≠ [] :=
  List.length_pos_iff.mp overrun.length_pos

theorem Stops.exists_front (stops : Stops strict n cs)
    (noSpace : ∀ c ∈ cs.head?, isJsonSpace c = false) :
    ∃ front rest, Overruns strict n front ∧ IntegerEnds rest ∧ cs = front ++ rest := by
  obtain ⟨before, front, rest, spaces, overrun, ends, rfl⟩ := stops
  cases before with
  | cons c before =>
      have space := spaces c List.mem_cons_self
      rw [noSpace c rfl] at space
      cases space
  | nil => exact ⟨front, rest, overrun, ends, rfl⟩

theorem Stops.leads (stops : Stops strict n cs) (noSpace : ∀ c ∈ cs.head?, isJsonSpace c = false)
    (other : ∀ c ∈ cs.head?, c ≠ '[' ∧ c ≠ '\x7b') : LeadsLong n cs := by
  obtain ⟨front, rest, overrun, ends, rfl⟩ := stops.exists_front noSpace
  refine overrun.leads ends fun c head => other c ?_
  rwa [List.head?_append_of_ne_nil _ overrun.ne_nil]

theorem not_leads_nil : ¬ LeadsLong n [] := by
  rintro ⟨negative, whole, rest, -, long, -, text⟩
  obtain ⟨many, -⟩ := long_of_integer long
  obtain ⟨-, rfl, -⟩ : sign negative = [] ∧ whole = [] ∧ rest = [] := by simpa using text.symm
  exact Nat.not_lt_zero _ many

theorem leads_replicate {k : Nat} (long : digitLimit < k) : LeadsLong ⟨k⟩ (List.replicate k '1') := by
  have digits : (List.replicate k '1').all Char.isDigit = true :=
    List.all_eq_true.mpr fun c member => by rw [List.eq_of_mem_replicate member]; rfl
  have numeral : Whole (List.replicate k '1') := by
    obtain ⟨m, rfl⟩ := Nat.exists_eq_add_of_lt long
    exact .digits (by decide) digits
  refine ⟨false, List.replicate k '1', [], numeral, ?_, numberEnds_nil.integerEnds, by simp [sign]⟩
  rw [integer, List.length_replicate, if_pos long]

theorem LeadsLong.append_iff (breaks : BreaksNumbers c) :
    LeadsLong n (front ++ c :: back) ↔ LeadsLong n front := by
  constructor
  · rintro ⟨negative, whole, rest, numeral, long, ends, text⟩
    have outside : c ∉ sign negative ++ whole := by
      intro member
      rcases List.mem_append.mp member with minus | digit
      · have listed : sign negative ⊆ ['.', 'e', 'E', '+', '-'] := by cases negative <;> decide
        exact breaks.2 (listed minus)
      · have isDigit := List.all_eq_true.mp (all_whole numeral) c digit
        rw [breaks.1] at isDigit
        cases isDigit
    obtain ⟨more, rfl⟩ : sign negative ++ whole <+: front :=
      Text.prefix_of_prefix_append front outside ⟨rest, by rw [text, List.append_assoc]⟩
    rw [List.append_assoc, List.append_assoc, List.append_cancel_left_eq,
      List.append_cancel_left_eq] at text
    rw [← text, integerEnds_append_iff breaks] at ends
    exact ⟨negative, whole, more, numeral, long, ends, List.append_assoc ..⟩
  · rintro ⟨negative, whole, rest, numeral, long, ends, rfl⟩
    exact ⟨negative, whole, rest ++ c :: back, numeral, long,
      (integerEnds_append_iff breaks).mpr ends, by simp⟩

theorem Stops.append (stops : Stops strict n cs) (breaks : BreaksNumbers c) :
    Stops strict n (cs ++ c :: back) := by
  obtain ⟨before, front, rest, spaces, overrun, ends, rfl⟩ := stops
  exact ⟨before, front, rest ++ c :: back, spaces, overrun, (integerEnds_append_iff breaks).mpr ends,
    by simp⟩

end LeadsLong

section Composites

variable {strict : Bool} {n : Overlong} {v : Json} {cs : List Char}

theorem Spells.scanValue_composite (spelled : Spells strict v cs)
    (opening : ∃ c ∈ cs.head?, c = '[' ∨ c = '\x7b') (rest : List Char) :
    scanValue strict (2 * (cs ++ rest).length + 2) (cs ++ rest) = .ok (v, rest) := by
  refine (completeAt _).scanValue_composite spelled opening ?_ rest
  rw [List.length_append]
  omega

/-- An array or an object is read to its end, so that no integer behind it counts. -/
theorem Spells.not_stops (spelled : Spells strict v cs)
    (opening : ∃ c ∈ cs.head?, c = '[' ∨ c = '\x7b') (rest : List Char) :
    ¬ Stops strict n (cs ++ rest) := by
  intro stops
  obtain ⟨c, head, mark⟩ := opening
  have noSpace : ∀ c ∈ (cs ++ rest).head?, isJsonSpace c = false := by
    intro d begins
    rw [List.head?_append, Option.mem_def.mp head] at begins
    obtain rfl := Option.some.inj begins
    rcases mark with rfl | rfl <;> decide
  obtain ⟨front, back, overrun, ends, text⟩ := stops.exists_front noSpace
  have long : 2 * front.length ≤ 2 * (cs ++ rest).length + 2 := by
    rw [text, List.length_append]
    omega
  have stopped := (stoppedAt _).value overrun long back ends
  rw [← text, spelled.scanValue_composite ⟨c, head, mark⟩ rest] at stopped
  cases stopped

theorem Spells.read_ne_ok {w : Json} {rest : List Char} (spelled : Spells strict v cs)
    (opening : ∃ c ∈ cs.head?, c = '[' ∨ c = '\x7b') (more : skipSpace rest ≠ []) :
    read strict (cs ++ rest) ≠ .ok w := by
  intro reading
  have same : skipSpace (cs ++ rest) = cs ++ rest := (spelled.begins.append _).skipSpace_eq
  rw [read, same, spelled.scanValue_composite opening] at reading
  dsimp only at reading
  split at reading
  · next nothing => exact more nothing
  · cases reading

end Composites

end PromptCanvas.Json
