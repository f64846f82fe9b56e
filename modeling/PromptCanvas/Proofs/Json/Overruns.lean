import PromptCanvas.Proofs.Json.Beginnings

/-! # Integers that stop the reader

`Overruns`: a text that begins a value and ends with an integer of too many digits in it.
The reader stops for such an integer exactly if it comes to the end of such a beginning
(`stops_iff`); a strict reading and one that is not stop at the same place
(`Overruns.lenient`). -/

set_option autoImplicit false

namespace PromptCanvas.Json

open Binary64.textWith (sign)
open Numeral (Whole)

section Grammar

variable (strict : Bool) (n : Overlong)

mutual

/-- A value up to the end of an integer that is too long. -/
inductive Overruns : List Char → Prop
  | number {negative : Bool} {whole : List Char} (numeral : Whole whole)
      (long : integer negative whole = .error n) : Overruns (sign negative ++ whole)
  | array {gap cs : List Char} (spaces : Spaces gap) (items : ItemsOverrun cs) :
      Overruns ('[' :: (gap ++ cs))
  | object {gap cs : List Char} (spaces : Spaces gap) (members : MembersOverrun cs) :
      Overruns ('\x7b' :: (gap ++ cs))

inductive ItemsOverrun : List Char → Prop
  | here {cs : List Char} (value : Overruns cs) : ItemsOverrun cs
  | later {v : Json} {cs gap next others : List Char} (spelled : Spells strict v cs)
      (spaces : Spaces gap) (nextSpaces : Spaces next) (rest : ItemsOverrun others) :
      ItemsOverrun (cs ++ (gap ++ ',' :: (next ++ others)))

inductive MembersOverrun : List Char → Prop
  | here {key : String} {name cs before after : List Char}
      (named : SpellsString strict key name) (beforeSpaces : Spaces before)
      (afterSpaces : Spaces after) (value : Overruns cs) :
      MembersOverrun (name ++ (before ++ ':' :: (after ++ cs)))
  | later {field : String × Json} {cs gap next others : List Char}
      (spelled : SpellsMember strict field cs) (spaces : Spaces gap) (nextSpaces : Spaces next)
      (rest : MembersOverrun others) :
      MembersOverrun (cs ++ (gap ++ ',' :: (next ++ others)))

end

end Grammar

section Soundness

variable {strict : Bool} {n : Overlong} {cs rest : List Char}

theorem consUnit_ne_overlong {unit : Nat} {scan : Scan (List Nat)}
    (other : scan ≠ .error (.overlong n, rest)) :
    consUnit unit scan ≠ .error (.overlong n, rest) := by
  rcases scan with fault | ⟨units, after⟩
  · exact other
  · exact nofun

theorem stringUnits_ne_overlong (strict : Bool) (start cs : List Char) :
    stringUnits strict start cs ≠ .error (.overlong n, rest) := by
  induction bound : cs.length using Nat.strong_induction_on generalizing cs with
  | _ _ ih =>
      subst bound
      have rest_ne : ∀ {unit : Nat} {more : List Char}, more.length < cs.length →
          consUnit unit (stringUnits strict start more) ≠ .error (.overlong n, rest) :=
        fun shorter => consUnit_ne_overlong (ih _ shorter _ rfl)
      rw [stringUnits.eq_def]
      repeat' split
      all_goals
        first
          | exact rest_ne (by simp only [List.length_cons]; omega)
          | rintro ⟨⟩

theorem scanString_ne_overlong (strict : Bool) (start cs : List Char) :
    scanString strict start cs ≠ .error (.overlong n, rest) := by
  unfold scanString
  split
  · exact nofun
  · next fault found =>
      rintro ⟨⟩
      exact stringUnits_ne_overlong strict start cs found

theorem afterWhole_eq_error {negative : Bool} {whole after : List Char}
    (read : afterWhole negative whole after = (.error n, rest)) :
    after = rest ∧ integer negative whole = .error n ∧ fractionDigits rest = ([], rest) ∧
      exponentPart? rest = none := by
  obtain ⟨fraction, mid, point, text, cut⟩ := fraction_fractionDigits after
  unfold afterWhole at read
  rw [cut] at read
  dsimp only at read
  split at read
  · cases read
  · next absent =>
      split at read
      · next empty =>
          obtain ⟨long, rfl⟩ := Prod.mk.inj read
          cases point with
          | absent => exact ⟨text, long, by rwa [text, List.nil_append] at cut, absent⟩
          | digits nonempty all => exact absurd (List.isEmpty_iff.mp empty) nonempty
      · cases read

theorem scanned_eq_overlong_iff {found : Except Overlong Json × List Char} :
    scanned found = .error (.overlong n, rest) ↔ found = (.error n, rest) := by
  obtain ⟨_ | _, _⟩ := found <;> simp [scanned]

theorem long_of_integer {negative : Bool} {whole : List Char}
    (long : integer negative whole = .error n) :
    digitLimit < whole.length ∧ n = ⟨whole.length⟩ := by
  unfold integer at long
  split at long
  · next more => exact ⟨more, (Except.error.inj long).symm⟩
  · cases long

theorem overruns_of_scanScalar (read : scanScalar cs = .error (.overlong n, rest)) :
    ∃ front, cs = front ++ rest ∧ Overruns strict n front ∧ IntegerEnds rest := by
  unfold scanScalar at read
  split at read
  · cases read
  · split at read
    · next found number =>
        rw [scanned_eq_overlong_iff.mp read] at number
        obtain ⟨negative, whole, after, numeral, rfl, stop, parts⟩ :=
          exists_whole_of_scanNumber? number
        obtain ⟨rfl, long, noFraction, noExponent⟩ := afterWhole_eq_error parts
        have many : 1 < whole.length := Nat.lt_trans (by decide) (long_of_integer long).1
        exact ⟨sign negative ++ whole, (List.append_assoc ..).symm, .number numeral long,
          stop many, noFraction, noExponent⟩
    · cases read

/-- The beginnings at whose ends the three readings stop with so much depth. -/
structure StopsAt (strict : Bool) (n : Overlong) (depth : Nat) : Prop where
  value : ∀ {cs rest}, scanValue strict depth cs = .error (.overlong n, rest) →
    ∃ front, cs = front ++ rest ∧ Overruns strict n front ∧ IntegerEnds rest
  items : ∀ {cs rest}, scanItems strict depth cs = .error (.overlong n, rest) →
    ∃ front, cs = front ++ rest ∧ ItemsOverrun strict n front ∧ IntegerEnds rest
  members : ∀ {cs rest}, scanMembers strict depth cs = .error (.overlong n, rest) →
    ∃ front, cs = front ++ rest ∧ MembersOverrun strict n front ∧ IntegerEnds rest

theorem StopsAt.scanItems_succ {depth : Nat} (stops : StopsAt strict n depth)
    (read : scanItems strict (depth + 1) cs = .error (.overlong n, rest)) :
    ∃ front, cs = front ++ rest ∧ ItemsOverrun strict n front ∧ IntegerEnds rest := by
  rw [scanItems] at read
  split at read
  · next fault first =>
      cases read
      obtain ⟨front, text, value, ends⟩ := stops.value first
      exact ⟨front, text, .here value, ends⟩
  · next v after first =>
      obtain ⟨item, rfl, spelled⟩ := (soundAt depth).value first
      split at read
      · cases read
      · next last comma =>
          obtain ⟨gap, spaces, rfl⟩ := exists_spaces_of_skipSpace comma
          obtain ⟨next, nextSpaces, text⟩ := exists_spaces last
          split at read
          · cases read
          · next inside =>
              cases read
              obtain ⟨front, written, items, ends⟩ := stops.items inside
              refine ⟨item ++ (gap ++ ',' :: (next ++ front)), ?_,
                .later spelled spaces nextSpaces items, ends⟩
              rw [text, written]
              simp
      · cases read

theorem StopsAt.scanMembers_succ {depth : Nat} (stops : StopsAt strict n depth)
    (read : scanMembers strict (depth + 1) cs = .error (.overlong n, rest)) :
    ∃ front, cs = front ++ rest ∧ MembersOverrun strict n front ∧ IntegerEnds rest := by
  rw [scanMembers.eq_def] at read
  dsimp only at read
  split at read
  · next opened =>
      split at read
      · next fault found =>
          cases read
          exact absurd found (scanString_ne_overlong _ _ _)
      · next key colon named =>
          obtain ⟨name, text, spelledKey⟩ := spells_of_scanString named
          rw [text]
          split at read
          · next value found =>
              obtain ⟨before, beforeSpaces, rfl⟩ := exists_spaces_of_skipSpace found
              obtain ⟨after, afterSpaces, valueText⟩ := exists_spaces value
              split at read
              · next first =>
                  cases read
                  obtain ⟨front, written, overrun, ends⟩ := stops.value first
                  refine ⟨_, ?_, .here spelledKey beforeSpaces afterSpaces overrun, ends⟩
                  rw [valueText, written]
                  simp
              · next v behind first =>
                  obtain ⟨front, written, spelled⟩ := (soundAt depth).value first
                  rw [valueText, written]
                  have field := SpellsMember.colon spelledKey beforeSpaces afterSpaces spelled
                  split at read
                  · cases read
                  · next last comma =>
                      obtain ⟨gap, spaces, rfl⟩ := exists_spaces_of_skipSpace comma
                      obtain ⟨next, nextSpaces, moreText⟩ := exists_spaces last
                      split at read
                      · cases read
                      · next inside =>
                          cases read
                          obtain ⟨more, moreWritten, overrun, ends⟩ := stops.members inside
                          refine ⟨_, ?_, .later field spaces nextSpaces overrun, ends⟩
                          rw [moreText, moreWritten]
                          simp
                  · cases read
          · cases read
  · cases read

theorem StopsAt.scanValue_succ {depth : Nat} (stops : StopsAt strict n depth)
    (read : scanValue strict (depth + 1) cs = .error (.overlong n, rest)) :
    ∃ front, cs = front ++ rest ∧ Overruns strict n front ∧ IntegerEnds rest := by
  rw [scanValue.eq_def] at read
  dsimp only at read
  split at read
  · split at read
    · cases read
    · next found =>
        cases read
        exact absurd found (scanString_ne_overlong _ _ _)
  · next inner =>
      split at read
      · cases read
      · split at read
        · cases read
        · next inside =>
            obtain ⟨gap, spaces, text⟩ := exists_spaces inner
            cases read
            obtain ⟨front, written, items, ends⟩ := stops.items inside
            refine ⟨'[' :: (gap ++ front), ?_, .array spaces items, ends⟩
            rw [text, written]
            simp
  · next inner =>
      split at read
      · cases read
      · split at read
        · cases read
        · next inside =>
            obtain ⟨gap, spaces, text⟩ := exists_spaces inner
            cases read
            obtain ⟨front, written, members, ends⟩ := stops.members inside
            refine ⟨'\x7b' :: (gap ++ front), ?_, .object spaces members, ends⟩
            rw [text, written]
            simp
  · exact overruns_of_scanScalar read

theorem stopsAt (depth : Nat) : StopsAt strict n depth := by
  induction depth with
  | zero =>
      refine ⟨?_, ?_, ?_⟩
      · intro cs rest read
        rw [scanValue] at read
        cases read
      · intro cs rest read
        rw [scanItems] at read
        cases read
      · intro cs rest read
        rw [scanMembers] at read
        cases read
  | succ depth stops => exact ⟨stops.scanValue_succ, stops.scanItems_succ, stops.scanMembers_succ⟩

end Soundness

section Completeness

variable {strict : Bool} {n : Overlong} {front rest : List Char}

theorem Overruns.scans (overrun : Overruns strict n front) (ends : IntegerEnds rest) :
    BeginsValue (front ++ rest) := by
  cases overrun with
  | number numeral long =>
      rw [List.append_assoc]
      exact beginsValue_of_scanScalar (scans_whole _ numeral ends)
  | array => exact ⟨'[', _, rfl, rfl, by decide, by decide, by decide⟩
  | object => exact ⟨'\x7b', _, rfl, rfl, by decide, by decide, by decide⟩

theorem ItemsOverrun.scans (overrun : ItemsOverrun strict n front) (ends : IntegerEnds rest) :
    BeginsValue (front ++ rest) := by
  cases overrun with
  | here value => exact value.scans ends
  | later spelled => exact (spelled.begins.append _).append rest

theorem MembersOverrun.begins (overrun : MembersOverrun strict n front) :
    ∃ more, front = '"' :: more := by
  cases overrun with
  | here named =>
      cases named
      exact ⟨_, rfl⟩
  | later spelled =>
      cases spelled with
      | colon named =>
          cases named
          exact ⟨_, rfl⟩

theorem Overruns.length_pos (overrun : Overruns strict n front) : 0 < front.length := by
  cases overrun with
  | number numeral long =>
      obtain ⟨more, -⟩ := long_of_integer long
      rw [List.length_append]
      omega
  | array | object => exact Nat.succ_pos _

/-- At the end of so short a beginning the reader stops with so much depth. -/
structure StoppedAt (strict : Bool) (n : Overlong) (depth : Nat) : Prop where
  value : ∀ {front}, Overruns strict n front → 2 * front.length ≤ depth → ∀ rest, IntegerEnds rest →
    scanValue strict depth (front ++ rest) = .error (.overlong n, rest)
  items : ∀ {front}, ItemsOverrun strict n front → 2 * front.length + 1 ≤ depth →
    ∀ rest, IntegerEnds rest → scanItems strict depth (front ++ rest) = .error (.overlong n, rest)
  members : ∀ {front}, MembersOverrun strict n front → 2 * front.length + 1 ≤ depth →
    ∀ rest, IntegerEnds rest → scanMembers strict depth (front ++ rest) = .error (.overlong n, rest)

theorem StoppedAt.scanItems_succ {depth : Nat} (stopped : StoppedAt strict n depth)
    (overrun : ItemsOverrun strict n front) (fuel : 2 * front.length + 1 ≤ depth + 1)
    (ends : IntegerEnds rest) :
    scanItems strict (depth + 1) (front ++ rest) = .error (.overlong n, rest) := by
  cases overrun with
  | here value => rw [scanItems, stopped.value value (by omega) rest ends]
  | @later v cs gap next others spelled spaces nextSpaces more =>
      simp only [List.length_append, List.length_cons] at fuel
      have first := (completeAt depth).value spelled (by omega) _
        (numberEnds_spaces spaces (m := ',') (by simp) (next ++ (others ++ rest)))
      have after := stopped.items more (by omega) rest ends
      rw [← (more.scans ends).skipSpace_eq, ← skipSpace_append nextSpaces] at after
      simp only [List.append_assoc, List.cons_append, scanItems, first,
        skipSpace_spaces spaces (m := ',') rfl, after]

theorem StoppedAt.scanMembers_succ {depth : Nat} (stopped : StoppedAt strict n depth)
    (overrun : MembersOverrun strict n front) (fuel : 2 * front.length + 1 ≤ depth + 1)
    (ends : IntegerEnds rest) :
    scanMembers strict (depth + 1) (front ++ rest) = .error (.overlong n, rest) := by
  cases overrun with
  | @here key name cs before after named beforeSpaces afterSpaces value =>
      simp only [List.length_append, List.length_cons] at fuel
      have inside := stopped.value value (by omega) rest ends
      simp only [List.append_assoc, List.cons_append]
      rw [scanMembers_named named beforeSpaces afterSpaces (value.scans ends), inside]
  | @later field cs gap next others spelled spaces nextSpaces more =>
      simp only [List.length_append, List.length_cons] at fuel
      have inside := stopped.members more (by omega) rest ends
      have gone : skipSpace (next ++ (others ++ rest)) = others ++ rest := by
        obtain ⟨body, rfl⟩ := more.begins
        exact skipSpace_spaces nextSpaces rfl _
      simp only [List.append_assoc, List.cons_append]
      rw [(completeAt depth).scanMembers_member spelled (by omega)
        (numberEnds_spaces spaces (by simp) _), scanAfterField, skipSpace_spaces spaces rfl]
      simp only [gone, inside]

theorem StoppedAt.scanValue_succ {depth : Nat} (stopped : StoppedAt strict n depth)
    (overrun : Overruns strict n front) (fuel : 2 * front.length ≤ depth + 1)
    (ends : IntegerEnds rest) :
    scanValue strict (depth + 1) (front ++ rest) = .error (.overlong n, rest) := by
  cases overrun with
  | @number negative whole numeral long =>
      have read := scanScalar_whole negative numeral ends
      rw [long] at read
      rw [List.append_assoc, scanValue_scalar strict depth (scans_whole negative numeral ends), read]
      rfl
  | @array gap cs spaces items =>
      simp only [List.length_append, List.length_cons] at fuel
      have inside := stopped.items items (by omega) rest ends
      have gone := (skipSpace_append spaces _).trans (items.scans ends).skipSpace_eq
      obtain ⟨c, more, text, -, noClose, -⟩ := items.scans ends
      simp only [List.cons_append, List.append_assoc, scanValue, gone]
      rw [text] at inside ⊢
      split
      · next same => exact absurd (List.cons.inj same).1 noClose
      · rw [inside]
  | @object gap cs spaces members =>
      simp only [List.length_append, List.length_cons] at fuel
      have inside := stopped.members members (by omega) rest ends
      obtain ⟨more, rfl⟩ := members.begins
      have gone : skipSpace (gap ++ '"' :: (more ++ rest)) = _ := skipSpace_spaces spaces rfl _
      simp only [List.cons_append, List.append_assoc] at inside ⊢
      simp only [scanValue, gone]
      split
      · next same => exact absurd (List.cons.inj same).1 (by decide)
      · rw [inside]

theorem stoppedAt (depth : Nat) : StoppedAt strict n depth := by
  induction depth with
  | zero =>
      refine ⟨?_, by omega, by omega⟩
      intro front overrun fuel
      have := overrun.length_pos
      omega
  | succ depth stopped =>
      exact ⟨fun overrun fuel _ ends => stopped.scanValue_succ overrun fuel ends,
        fun overrun fuel _ ends => stopped.scanItems_succ overrun fuel ends,
        fun overrun fuel _ ends => stopped.scanMembers_succ overrun fuel ends⟩

end Completeness

section Documents

variable {strict : Bool} {n : Overlong} {cs : List Char}

/-- The text begins with blanks and an overrun, and the integer ends there. -/
def Stops (strict : Bool) (n : Overlong) (cs : List Char) : Prop :=
  ∃ before front rest, Spaces before ∧ Overruns strict n front ∧ IntegerEnds rest ∧
    cs = before ++ (front ++ rest)

theorem kind_located (kind : FaultKind) (text rest : List Char) :
    (Fault.located kind text rest).kind = kind := rfl

theorem overlong?_eq_some_iff {fault : Fault} :
    fault.overlong? = some n ↔ fault.kind = .overlong n := by
  unfold Fault.overlong?
  split
  · next same => simp [same]
  · next other =>
      constructor
      · exact nofun
      · exact fun same => absurd same (other n)

theorem stops_iff_scan :
    (∃ fault, read strict cs = .error fault ∧ fault.overlong? = some n) ↔
      ∃ rest, scanValue strict (2 * cs.length + 2) (skipSpace cs) = .error (.overlong n, rest) := by
  unfold read
  split
  · next found => simp [found, overlong?_eq_some_iff, kind_located]
  · next found => split <;> simp [found, overlong?_eq_some_iff, kind_located]

theorem scan_iff_stops {depth : Nat} (deep : 2 * cs.length ≤ depth) :
    (∃ rest, scanValue strict depth (skipSpace cs) = .error (.overlong n, rest)) ↔
      Stops strict n cs := by
  constructor
  · rintro ⟨rest, found⟩
    obtain ⟨before, spaces, text⟩ := exists_spaces cs
    obtain ⟨front, written, value, ends⟩ := (stopsAt _).value found
    exact ⟨before, front, rest, spaces, value, ends, by rw [text, written]⟩
  · rintro ⟨before, front, rest, spaces, overrun, ends, rfl⟩
    simp only [List.length_append] at deep
    have value := (stoppedAt depth).value overrun (by omega) rest ends
    rw [skipSpace_append spaces, (overrun.scans ends).skipSpace_eq]
    exact ⟨rest, value⟩

/-- A reading stops for an integer exactly at the end of an overrun. -/
theorem stops_iff :
    (∃ fault, read strict cs = .error fault ∧ fault.overlong? = some n) ↔ Stops strict n cs :=
  stops_iff_scan.trans (scan_iff_stops (by omega))

end Documents

section Leniency

mutual

theorem Overruns.lenient {n : Overlong} : ∀ {cs : List Char}, Overruns true n cs →
    Overruns false n cs
  | _, .number numeral long => .number numeral long
  | _, .array spaces items => .array spaces items.lenient
  | _, .object spaces members => .object spaces members.lenient

theorem ItemsOverrun.lenient {n : Overlong} : ∀ {cs : List Char}, ItemsOverrun true n cs →
    ItemsOverrun false n cs
  | _, .here value => .here value.lenient
  | _, .later spelled spaces nextSpaces rest =>
      .later spelled.lenient spaces nextSpaces rest.lenient

theorem MembersOverrun.lenient {n : Overlong} : ∀ {cs : List Char}, MembersOverrun true n cs →
    MembersOverrun false n cs
  | _, .here named before after value => .here named.lenient before after value.lenient
  | _, .later spelled spaces nextSpaces rest =>
      .later spelled.lenient spaces nextSpaces rest.lenient

end

theorem Stops.lenient {n : Overlong} {cs : List Char} (stops : Stops true n cs) :
    Stops false n cs := by
  obtain ⟨before, front, rest, spaces, overrun, ends, text⟩ := stops
  exact ⟨before, front, rest, spaces, overrun.lenient, ends, text⟩

end Leniency

end PromptCanvas.Json
