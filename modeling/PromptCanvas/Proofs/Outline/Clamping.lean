import PromptCanvas.Proofs.Number.Overflow
import PromptCanvas.Proofs.Outline.Rereading

/-! # Clamped levels

An integer is rounded to a number of the format before it counts as a level.  As long as that
number is finite it counts as the level nearest to the integer itself (`Level.ofJson_int`).  So
records with levels below `Binary64.limit` are numbered as if their levels were clamped, and
only those (`formatted_clamped`): a level from there on counts as the first instead of the
third. -/

set_option autoImplicit false

namespace PromptCanvas

open Binary64 (limit ofInt_cases)

namespace Level

section Integers

theorem toNat_ofInt (n : Int) : ((ofInt n).toNat : Int) = min 3 (max 1 n) := by
  unfold ofInt
  split_ifs <;> simp only [toNat] <;> omega

theorem ofInt_of_le_one {n : Int} (low : n ≤ 1) : ofInt n = .one := if_pos low

theorem ofInt_of_three_le {n : Int} (high : 3 ≤ n) : ofInt n = .three := by
  rw [ofInt, if_neg (by omega), if_neg (by omega)]

theorem ofInt_clamp (n : Int) : ofInt (min 3 (max 1 n)) = ofInt n := by
  rw [← toNat_ofInt]
  cases ofInt n <;> rfl

theorem ofFloat_infinite (negative : Bool) : ofFloat (.infinite negative) = .one := rfl

theorem ofFloat_negative (m : Nat) : ofFloat (.finite true m) = .one := by
  rw [ofFloat, Binary64.truncate]
  dsimp only
  generalize m / Binary64.unit = whole
  exact ofInt_of_le_one (by omega)

/-- An integer counts as itself below the limit, as rounding moves none over a level, and as one
from there on. -/
theorem ofJson_int (n : Int) : ofJson (.int n) = if n < limit then ofInt n else .one := by
  rw [ofJson]
  rcases ofInt_cases n with ⟨large, value⟩ | ⟨small, value⟩
  · rw [value, ofFloat_infinite]
    split
    · exact (ofInt_of_le_one (by omega)).symm
    · rfl
  · rw [value, if_pos (by omega)]
    by_cases negative : n < 0
    · rw [decide_eq_true negative, ofFloat_negative, ofInt_of_le_one (by omega)]
    · rw [decide_eq_false negative, ofFloat, Binary64.truncate]
      dsimp only
      rcases Binary64.rounded_integer n.natAbs with same | ⟨large, still⟩
      · rw [same, Nat.mul_div_cancel _ Binary64.unit_pos, Int.natAbs_of_nonneg (by omega)]
      · have whole := (Nat.le_div_iff_mul_le Binary64.unit_pos).mpr still
        rw [ofInt_of_three_le (by omega), ofInt_of_three_le (by omega)]

end Integers

end Level

namespace Json

section Fields

theorem lookup_insertField (key other : String) (value : Json) (fields : List (String × Json)) :
    (insertField key value fields).lookup other =
      if other = key then some value else fields.lookup other := by
  induction fields with
  | nil =>
      by_cases same : other = key
      · rw [if_pos same, insertField, same, List.lookup_cons_self]
      · have skipped : (other == key) = false := by simpa using same
        rw [if_neg same, insertField, List.lookup_cons, skipped]
  | cons f fields ih =>
      obtain ⟨name, v⟩ := f
      rw [insertField]
      by_cases here : name = key
      · rw [if_pos here, here, List.lookup_cons, List.lookup_cons]
        by_cases same : other = key
        · rw [if_pos same, same, beq_self_eq_true]
        · have skipped : (other == key) = false := by simpa using same
          rw [if_neg same, skipped]
      · rw [if_neg here, List.lookup_cons, List.lookup_cons, ih]
        by_cases same : other = key
        · have skipped : (other == name) = false := by simpa [same] using Ne.symm here
          rw [if_pos same, if_pos same, skipped]
        · rw [if_neg same, if_neg same]

theorem field_insertField (key other : String) (value : Json) (fields : List (String × Json)) :
    (Json.object (insertField key value fields)).field other =
      if other = key then value else (Json.object fields).field other := by
  rw [field, field, lookup_insertField]
  split <;> rfl

end Fields

end Json

namespace Outline

/-- A partial item whose level is an integer; whatever the fields give for it does not count. -/
structure Record where
  fields : List (String × Json)
  level : Int

namespace Record

section Records

def toJson (r : Record) : Json := .object (Json.insertField "level" (.int r.level) r.fields)

def clamped (r : Record) : Record := { r with level := min 3 (max 1 r.level) }

theorem draft_toJson (r : Record) :
    Draft.ofJson r.toJson =
      { Draft.ofJson (.object r.fields) with
        level := if r.level < limit then .ofInt r.level else .one } := by
  rw [← Level.ofJson_int]
  simp [toJson, Draft.ofJson, Draft.textOf, Json.field_insertField]

theorem level_toJson (r : Record) :
    ((Draft.ofJson r.toJson).level.toNat : Int) =
      if r.level < limit then min 3 (max 1 r.level) else 1 := by
  rw [draft_toJson]
  split
  · exact Level.toNat_ofInt r.level
  · rfl

theorem three_lt_limit : 3 < (limit : Int) := by decide +kernel

theorem draft_clamped (r : Record) :
    Draft.ofJson r.clamped.toJson =
      { Draft.ofJson (.object r.fields) with level := .ofInt r.level } := by
  have small : min 3 (max 1 r.level) < limit := (min_le_left _ _).trans_lt three_lt_limit
  rw [draft_toJson, clamped]
  dsimp only
  rw [if_pos small, Level.ofInt_clamp]

theorem draft_clamped_of_lt {r : Record} (small : r.level < limit) :
    Draft.ofJson r.clamped.toJson = Draft.ofJson r.toJson := by
  rw [draft_clamped, draft_toJson, if_pos small]

/-- A level from the limit on counts as the first, and clamped as the third. -/
theorem lt_of_level_eq {r : Record}
    (same : (Draft.ofJson r.toJson).level = (Draft.ofJson r.clamped.toJson).level) :
    r.level < limit := by
  by_contra large
  have beyond := three_lt_limit
  rw [draft_clamped, draft_toJson, if_neg large] at same
  dsimp only at same
  rw [Level.ofInt_of_three_le (by omega)] at same
  cases same

end Records

end Record

section Numbering

variable {records : List Record}

/-- The numbers of the items of a list, those of blank items among them. -/
def numbers (items : List Json) : List (List Nat) :=
  (numberFrom .start ((drafts items "").map Draft.toEntry)).map Prod.fst

theorem map_length_numbers (items : List Json) :
    (numbers items).map List.length = (drafts items "").map fun d => d.level.toNat := by
  have parts : (numberFrom .start ((drafts items "").map Draft.toEntry)).map
      (List.length ∘ Prod.fst) =
      (numberFrom .start ((drafts items "").map Draft.toEntry)).map
        ((fun e : Entry => e.level.toNat) ∘ Prod.snd) :=
    List.map_congr_left fun n member => numbered_numberFrom _ _ n member
  rw [numbers, List.map_map, parts, ← List.map_map, map_snd_numberFrom, List.map_map]
  rfl

theorem drafts_records (nonempty : records ≠ []) (fallback : String) (written : Record → Json) :
    drafts (records.map written) fallback = records.map fun r => Draft.ofJson (written r) := by
  rw [drafts_of_ne_nil (by simpa using nonempty), List.map_map]
  rfl

theorem drafts_clamped (small : ∀ r ∈ records, r.level < limit) :
    drafts (records.map fun r => r.clamped.toJson) "" = drafts (records.map Record.toJson) "" := by
  rcases eq_or_ne records [] with rfl | nonempty
  · rfl
  · rw [drafts_records nonempty, drafts_records nonempty]
    exact List.map_congr_left fun r member => Record.draft_clamped_of_lt (small r member)

theorem numbers_clamped_iff :
    numbers (records.map fun r => r.clamped.toJson) = numbers (records.map Record.toJson) ↔
      ∀ r ∈ records, r.level < limit := by
  constructor
  · intro same r member
    have nonempty : records ≠ [] := List.ne_nil_of_mem member
    have levels := congrArg (List.map List.length) same
    rw [map_length_numbers, map_length_numbers, drafts_records nonempty, drafts_records nonempty,
      List.map_map, List.map_map, List.map_inj_left] at levels
    exact Record.lt_of_level_eq (toNat_inj (levels r member).symm)
  · intro small
    rw [numbers, numbers, drafts_clamped small]

/-- Records at integer levels below the limit take the nearest of the three levels, those beyond it
the first; and a list is numbered as the same list with its levels clamped exactly if no record
is beyond the limit. -/
theorem formatted_clamped (records : List Record) :
    (records ≠ [] → ∀ fallback,
      (drafts (records.map Record.toJson) fallback).map (fun d => (d.level.toNat : Int)) =
        records.map fun r : Record => if r.level < limit then min 3 (max 1 r.level) else 1) ∧
    (numbers (records.map fun r => r.clamped.toJson) = numbers (records.map Record.toJson) ↔
      ∀ r ∈ records, r.level < limit) ∧
    ((∀ r ∈ records, r.level < limit) →
      formatted (records.map fun r => r.clamped.toJson) "" =
        formatted (records.map Record.toJson) "") := by
  refine ⟨?_, numbers_clamped_iff, ?_⟩
  · intro nonempty fallback
    rw [drafts_records nonempty, List.map_map]
    exact List.map_congr_left fun r _ => r.level_toJson
  · intro small
    rw [formatted, formatted, drafts_clamped small]

def huge : Record := ⟨[("text", .string "x")], 10 ^ 200 * 10 ^ 200⟩

/-- A record far beyond the limit is an item of the first level and is numbered as one. -/
theorem formatted_huge :
    (drafts [huge.toJson] "").map (fun d => (d.level.toNat : Int)) ≠
        [min 3 (max 1 huge.level)] ∧
      formatted [huge.clamped.toJson] "" ≠ formatted [huge.toJson] "" := by
  decide +kernel

end Numbering

end Outline

end PromptCanvas
