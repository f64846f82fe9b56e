import Mathlib.Data.List.Chain
import Mathlib.Data.List.DropRight
import PromptCanvas.Proofs.Outline.Rereading

/-! # What the numbers count

The number of an entry has a part for each level up to its own, and each part counts the
entries of that level since the last one of a lower level, blank entries and the entry itself
among them (`numberFrom_start`).  One after the other the numbers grow in dictionary order, where a
number comes before those that extend it (`pairwise_numberFrom`), so a list shows no number
twice and all in order (`formatted_numbers`).  `Tallied` is what the counters keep to. -/

set_option autoImplicit false

namespace PromptCanvas.Outline

section Tallies

variable {c : Counters} {front : List Entry}

/-- How many entries of a level there are since the last one of a lower level. -/
def tally (level : Nat) (es : List Entry) : Nat :=
  (es.rtakeWhile fun e => level ≤ e.level.toNat).countP fun e => e.level.toNat = level

def numberOf (es : List Entry) (level : Level) : List Nat :=
  (List.range' 1 level.toNat).map fun j => tally j es

theorem tally_concat (j : Nat) (es : List Entry) (e : Entry) :
    tally j (es ++ [e]) =
      if e.level.toNat < j then 0 else tally j es + if e.level.toNat = j then 1 else 0 := by
  unfold tally
  split_ifs with lower same
  · rw [List.rtakeWhile_concat_neg _ _ _ (by simpa using lower), List.countP_nil]
  · rw [List.rtakeWhile_concat_pos _ _ _ (by simpa using lower), List.countP_append,
      List.countP_singleton, if_pos (decide_eq_true same)]
  · rw [List.rtakeWhile_concat_pos _ _ _ (by simpa using lower), List.countP_append,
      List.countP_singleton, if_neg (by simpa using same)]

def Tallied (c : Counters) (front : List Entry) : Prop := ∀ j, c.countAt j = tally j.toNat front

theorem tallied_start : Tallied .start [] := by
  intro j
  cases j <;> rfl

theorem Tallied.advance (tallied : Tallied c front) (e : Entry) :
    Tallied (c.advance e.level) (front ++ [e]) := by
  intro j
  rw [Counters.countAt_advance, tally_concat]
  rcases Nat.lt_trichotomy j.toNat e.level.toNat with lower | same | higher
  · rw [if_pos lower, if_neg (by omega), if_neg (by omega), tallied j, Nat.add_zero]
  · rw [if_neg (by omega), if_pos (toNat_inj same), if_neg (by omega), if_pos same.symm, tallied j]
  · rw [if_neg (by omega), if_neg, if_pos higher]
    rintro rfl
    exact Nat.lt_irrefl _ higher

theorem Tallied.token_eq (tallied : Tallied c front) (level : Level) :
    c.token level = numberOf front level := by
  have one := tallied .one
  have two := tallied .two
  have three := tallied .three
  cases level <;>
    simp only [Counters.token, Counters.countAt, numberOf, Level.toNat, List.range', List.map_cons,
      List.map_nil] at one two three ⊢ <;>
    simp [one, two, three]

/-- From counters that hold the tallies on, every entry is numbered by its tallies. -/
theorem Tallied.numberFrom_eq (es : List Entry) : ∀ {c : Counters} {front : List Entry},
    Tallied c front →
      numberFrom c es = es.mapIdx fun i e => (numberOf (front ++ es.take (i + 1)) e.level, e) := by
  induction es with
  | nil => intro c front _; rfl
  | cons e es ih =>
      intro c front tallied
      have counted := tallied.advance e
      rw [numberFrom, List.mapIdx_cons, counted.token_eq, ih counted]
      simp only [List.take_succ_cons, List.take_zero, List.append_assoc, List.singleton_append]

theorem numberFrom_start (es : List Entry) :
    numberFrom .start es = es.mapIdx fun i e => (numberOf (es.take (i + 1)) e.level, e) :=
  tallied_start.numberFrom_eq es

end Tallies

section Ordering

theorem token_lt_token_advance (c : Counters) (level next : Level) :
    c.token level < (c.advance next).token next := by
  cases level <;> cases next <;>
    simp [Counters.token, Counters.advance, List.cons_lt_cons_iff]

theorem isChain_numberFrom (es : List Entry) : ∀ (c : Counters) (level : Level),
    List.IsChain (· < ·) (c.token level :: (numberFrom c es).map Prod.fst) := by
  induction es with
  | nil => intro c level; exact List.isChain_singleton _
  | cons e es ih =>
      intro c level
      exact List.isChain_cons_cons.mpr ⟨token_lt_token_advance c level e.level, ih _ e.level⟩

theorem pairwise_numberFrom (c : Counters) (es : List Entry) :
    ((numberFrom c es).map Prod.fst).Pairwise (· < ·) :=
  List.isChain_iff_pairwise.mp (isChain_numberFrom es c .one).tail

end Ordering

section Lines

def numberOfLine (line : List Char) : List Nat :=
  ((line.takeWhile (· != ' ')).splitOn '.').map Numeral.natOf

theorem numberOfLine_lineText {n : List Nat × Entry} (numbered : Numbered n) :
    numberOfLine (lineText n) = n.1 := by
  have solid : ∀ c ∈ tokenText n.1, (c != ' ') = true := by
    intro c member
    rw [bne_iff_ne]
    rintro rfl
    rcases mem_tokenText member with digit | point
    · cases digit
    · cases point
  rw [numberOfLine, lineText, List.takeWhile_append_of_pos solid,
    List.takeWhile_cons_of_neg (by decide), List.append_nil, splitOn_tokenText numbered.parts]

/-- A list is rendered as the lines of the items that are shown, each with the tallies of its
levels, and the numbers of these lines grow in dictionary order. -/
theorem formatted_numbers (items : List Json) :
    let es := (drafts items "").map Draft.toEntry
    let numbered := es.mapIdx fun i e => (numberOf (es.take (i + 1)) e.level, e)
    let lines := (numbered.filter fun n => shows n.2).map lineText
    formatted items "" = String.ofList (List.intercalate ['\n'] lines) ∧
      lines.map numberOfLine = (numbered.filter fun n => shows n.2).map Prod.fst ∧
      (lines.map numberOfLine).Pairwise (· < ·) := by
  intro es numbered lines
  have counted : numberFrom .start es = numbered := numberFrom_start es
  have shown : numbered.filter (fun n => shows n.2) = shownFrom .start es := by
    rw [shownFrom, counted]
  have numbers : lines.map numberOfLine = (shownFrom .start es).map Prod.fst := by
    rw [List.map_map, shown]
    exact List.map_congr_left fun n member =>
      numberOfLine_lineText (numbered_shownFrom .start es n member)
  refine ⟨?_, shown ▸ numbers, ?_⟩
  · rw [formatted, render_eq, ← shown]
  · rw [numbers]
    exact (pairwise_numberFrom .start es).sublist (List.filter_sublist.map _)

end Lines

end PromptCanvas.Outline
