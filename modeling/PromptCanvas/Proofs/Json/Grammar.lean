import Mathlib.Data.Bool.AllAny
import PromptCanvas.Proofs.Json.Tokens

/-! # The grammar of JSON texts

`Spells`: a text without blanks around it spells a value.  The reader is sound and
complete for this grammar: it reads a text exactly if the text is a spelling with
blanks around it, and as the value that is spelled (`read_eq_ok_iff`). -/

set_option autoImplicit false

namespace PromptCanvas.Json

section Grammar

mutual

/-- A value is spelled by a text that has no blanks around it. -/
inductive Spells (strict : Bool) : Json → List Char → Prop
  | scalar {v : Json} {cs : List Char} (spelled : SpellsScalar v cs) : Spells strict v cs
  | string {s : String} {cs : List Char} (spelled : SpellsString strict s cs) :
      Spells strict (.string s) cs
  | noItems {gap : List Char} (spaces : Spaces gap) :
      Spells strict (.array []) ('[' :: (gap ++ [']']))
  | array {items : List Json} {gap cs : List Char} (spaces : Spaces gap)
      (spelled : SpellsItems strict items cs) :
      Spells strict (.array items) ('[' :: (gap ++ (cs ++ [']'])))
  | noFields {gap : List Char} (spaces : Spaces gap) :
      Spells strict (.object []) ('\x7b' :: (gap ++ ['\x7d']))
  | object {fields : List (String × Json)} {gap cs : List Char} (spaces : Spaces gap)
      (spelled : SpellsMembers strict fields cs) :
      Spells strict (.ofFields fields) ('\x7b' :: (gap ++ (cs ++ ['\x7d'])))

/-- The items of an array with the commas between them and the blanks behind them. -/
inductive SpellsItems (strict : Bool) : List Json → List Char → Prop
  | last {v : Json} {cs gap : List Char} (spelled : Spells strict v cs) (spaces : Spaces gap) :
      SpellsItems strict [v] (cs ++ gap)
  | more {v : Json} {items : List Json} {cs gap next others : List Char}
      (spelled : Spells strict v cs) (spaces : Spaces gap) (nextSpaces : Spaces next)
      (rest : SpellsItems strict items others) :
      SpellsItems strict (v :: items) (cs ++ (gap ++ ',' :: (next ++ others)))

inductive SpellsMember (strict : Bool) : String × Json → List Char → Prop
  | colon {key : String} {v : Json} {name cs before after : List Char}
      (named : SpellsString strict key name) (beforeSpaces : Spaces before)
      (afterSpaces : Spaces after) (spelled : Spells strict v cs) :
      SpellsMember strict (key, v) (name ++ (before ++ ':' :: (after ++ cs)))

/-- The fields of an object with the commas between them and the blanks behind them. -/
inductive SpellsMembers (strict : Bool) : List (String × Json) → List Char → Prop
  | last {field : String × Json} {cs gap : List Char} (spelled : SpellsMember strict field cs)
      (spaces : Spaces gap) : SpellsMembers strict [field] (cs ++ gap)
  | more {field : String × Json} {fields : List (String × Json)} {cs gap next others : List Char}
      (spelled : SpellsMember strict field cs) (spaces : Spaces gap) (nextSpaces : Spaces next)
      (rest : SpellsMembers strict fields others) :
      SpellsMembers strict (field :: fields) (cs ++ (gap ++ ',' :: (next ++ others)))

end

end Grammar

section Soundness

variable {strict : Bool}

theorem exists_spaces (cs : List Char) : ∃ gap, Spaces gap ∧ cs = gap ++ skipSpace cs :=
  ⟨cs.takeWhile isJsonSpace, fun _ member => List.mem_takeWhile_imp member,
    (List.takeWhile_append_dropWhile).symm⟩

theorem exists_spaces_of_skipSpace {cs rest : List Char} (skipped : skipSpace cs = rest) :
    ∃ gap, Spaces gap ∧ cs = gap ++ rest := skipped ▸ exists_spaces cs

/-- What the three readings take with so much depth spells what they give. -/
structure SoundAt (strict : Bool) (n : Nat) : Prop where
  value : ∀ {cs rest v}, scanValue strict n cs = .ok (v, rest) →
    ∃ front, cs = front ++ rest ∧ Spells strict v front
  items : ∀ {cs rest vs}, scanItems strict n cs = .ok (vs, rest) →
    ∃ front, cs = front ++ ']' :: rest ∧ SpellsItems strict vs front
  members : ∀ {cs rest fields}, scanMembers strict n cs = .ok (fields, rest) →
    ∃ front, cs = front ++ '\x7d' :: rest ∧ SpellsMembers strict fields front

theorem SoundAt.scanItems_succ {n : Nat} (sound : SoundAt strict n) {cs rest : List Char}
    {vs : List Json} (read : scanItems strict (n + 1) cs = .ok (vs, rest)) :
    ∃ front, cs = front ++ ']' :: rest ∧ SpellsItems strict vs front := by
  rw [scanItems] at read
  split at read
  · cases read
  · next v after first =>
      obtain ⟨front, rfl, spelled⟩ := sound.value first
      split at read
      · next last close =>
          cases read
          obtain ⟨gap, spaces, rfl⟩ := exists_spaces_of_skipSpace close
          exact ⟨front ++ gap, by simp, .last spelled spaces⟩
      · next last comma =>
          obtain ⟨gap, spaces, rfl⟩ := exists_spaces_of_skipSpace comma
          obtain ⟨next, nextSpaces, text⟩ := exists_spaces last
          split at read
          · next others end_ inside =>
              cases read
              obtain ⟨more, written, spelledMore⟩ := sound.items inside
              refine ⟨front ++ (gap ++ ',' :: (next ++ more)), ?_,
                .more spelled spaces nextSpaces spelledMore⟩
              rw [text, written]
              simp
          · cases read
      · cases read

theorem SoundAt.scanMembers_succ {n : Nat} (sound : SoundAt strict n) {cs rest : List Char}
    {fields : List (String × Json)} (read : scanMembers strict (n + 1) cs = .ok (fields, rest)) :
    ∃ front, cs = front ++ '\x7d' :: rest ∧ SpellsMembers strict fields front := by
  rw [scanMembers.eq_def] at read
  dsimp only at read
  split at read
  · next opened =>
      split at read
      · cases read
      · next key colon named =>
          obtain ⟨name, text, spelledKey⟩ := spells_of_scanString named
          rw [text]
          split at read
          · next value found =>
              obtain ⟨before, beforeSpaces, rfl⟩ := exists_spaces_of_skipSpace found
              obtain ⟨after, afterSpaces, valueText⟩ := exists_spaces value
              split at read
              · cases read
              · next v behind first =>
                  obtain ⟨front, written, spelled⟩ := sound.value first
                  rw [valueText, written]
                  have field := SpellsMember.colon spelledKey beforeSpaces afterSpaces spelled
                  split at read
                  · next last close =>
                      cases read
                      obtain ⟨gap, spaces, rfl⟩ := exists_spaces_of_skipSpace close
                      exact ⟨_, by simp, .last field spaces⟩
                  · next last comma =>
                      obtain ⟨gap, spaces, rfl⟩ := exists_spaces_of_skipSpace comma
                      obtain ⟨next, nextSpaces, moreText⟩ := exists_spaces last
                      split at read
                      · next others end_ inside =>
                          cases read
                          obtain ⟨more, moreWritten, spelledMore⟩ := sound.members inside
                          refine ⟨_, ?_, .more field spaces nextSpaces spelledMore⟩
                          rw [moreText, moreWritten]
                          simp
                      · cases read
                  · cases read
          · cases read
  · cases read

theorem SoundAt.scanValue_succ {n : Nat} (sound : SoundAt strict n) {cs rest : List Char}
    {v : Json} (read : scanValue strict (n + 1) cs = .ok (v, rest)) :
    ∃ front, cs = front ++ rest ∧ Spells strict v front := by
  rw [scanValue.eq_def] at read
  dsimp only at read
  split at read
  · split at read
    · next s after found =>
        cases read
        obtain ⟨front, text, spelled⟩ := spells_of_scanString found
        exact ⟨front, text, .string spelled⟩
    · cases read
  · next inner =>
      split at read
      · next after close =>
          cases read
          obtain ⟨gap, spaces, rfl⟩ := exists_spaces_of_skipSpace close
          exact ⟨'[' :: (gap ++ [']']), by simp, .noItems spaces⟩
      · next noClose =>
          split at read
          · next vs after inside =>
              cases read
              obtain ⟨gap, spaces, text⟩ := exists_spaces inner
              obtain ⟨front, written, spelled⟩ := sound.items inside
              refine ⟨'[' :: (gap ++ (front ++ [']'])), ?_, .array spaces spelled⟩
              rw [text, written]
              simp
          · cases read
  · next inner =>
      split at read
      · next after close =>
          cases read
          obtain ⟨gap, spaces, rfl⟩ := exists_spaces_of_skipSpace close
          exact ⟨'\x7b' :: (gap ++ ['\x7d']), by simp, .noFields spaces⟩
      · split at read
        · next fields after inside =>
            cases read
            obtain ⟨gap, spaces, text⟩ := exists_spaces inner
            obtain ⟨front, written, spelled⟩ := sound.members inside
            refine ⟨'\x7b' :: (gap ++ (front ++ ['\x7d'])), ?_, .object spaces spelled⟩
            rw [text, written]
            simp
        · cases read
  · obtain ⟨front, text, spelled⟩ := spells_of_scanScalar read
    exact ⟨front, text, .scalar spelled⟩

theorem soundAt (n : Nat) : SoundAt strict n := by
  induction n with
  | zero =>
      refine ⟨?_, ?_, ?_⟩
      · intro cs rest v read
        rw [scanValue] at read
        cases read
      · intro cs rest vs read
        rw [scanItems] at read
        cases read
      · intro cs rest fields read
        rw [scanMembers] at read
        cases read
  | succ n sound => exact ⟨sound.scanValue_succ, sound.scanItems_succ, sound.scanMembers_succ⟩

end Soundness

section Completeness

variable {strict : Bool}

theorem numberEnds_spaces {gap : List Char} (spaces : Spaces gap) {m : Char}
    (other : m ∈ [',', ']', '\x7d']) (rest : List Char) : NumberEnds (gap ++ m :: rest) := by
  cases gap with
  | nil =>
      rintro c ⟨⟩
      simp only [List.mem_cons, List.not_mem_nil, or_false] at other
      rcases other with rfl | rfl | rfl <;> decide
  | cons c gap =>
      have space := spaces c (List.mem_cons_self ..)
      simp only [isJsonSpace, Bool.or_eq_true, decide_eq_true_iff] at space
      rintro d ⟨⟩
      rcases space with ((rfl | rfl) | rfl) | rfl <;> decide

theorem skipSpace_spaces {gap : List Char} (spaces : Spaces gap) {m : Char}
    (solid : isJsonSpace m = false) (rest : List Char) :
    skipSpace (gap ++ m :: rest) = m :: rest :=
  (skipSpace_append spaces _).trans (skipSpace_cons solid rest)

theorem Spells.begins {v : Json} {cs : List Char} (spelled : Spells strict v cs) :
    BeginsValue cs := by
  cases spelled with
  | scalar spelled =>
      have read := spelled.scanScalar_append numberEnds_nil
      rw [List.append_nil] at read
      exact beginsValue_of_scanScalar (scans_of_ok read)
  | string spelled =>
      cases spelled
      exact ⟨'"', _, rfl, rfl, by decide, by decide, by decide⟩
  | noItems | array => exact ⟨'[', _, rfl, rfl, by decide, by decide, by decide⟩
  | noFields | object => exact ⟨'\x7b', _, rfl, rfl, by decide, by decide, by decide⟩

theorem Spells.length_pos {v : Json} {cs : List Char} (spelled : Spells strict v cs) :
    0 < cs.length := by
  obtain ⟨c, more, rfl, -⟩ := spelled.begins
  exact Nat.succ_pos _

theorem SpellsItems.begins {vs : List Json} {cs : List Char} (spelled : SpellsItems strict vs cs) :
    BeginsValue cs := by
  cases spelled with
  | last spelled => exact spelled.begins.append _
  | more spelled => exact spelled.begins.append _

theorem SpellsMembers.begins {fields : List (String × Json)} {cs : List Char}
    (spelled : SpellsMembers strict fields cs) : ∃ more, cs = '"' :: more := by
  have member : ∀ {field front}, SpellsMember strict field front → ∃ more, front = '"' :: more := by
    rintro _ _ ⟨⟨_⟩, -, -, -⟩
    exact ⟨_, rfl⟩
  cases spelled with
  | last first | more first =>
      obtain ⟨more, rfl⟩ := member first
      exact ⟨_, rfl⟩

/-- What is spelled by so short a text is read with so much depth. -/
structure CompleteAt (strict : Bool) (n : Nat) : Prop where
  value : ∀ {cs v}, Spells strict v cs → 2 * cs.length ≤ n → ∀ rest, NumberEnds rest →
    scanValue strict n (cs ++ rest) = .ok (v, rest)
  items : ∀ {cs vs}, SpellsItems strict vs cs → 2 * cs.length + 1 ≤ n → ∀ rest,
    scanItems strict n (cs ++ ']' :: rest) = .ok (vs, rest)
  members : ∀ {cs fields}, SpellsMembers strict fields cs → 2 * cs.length + 1 ≤ n → ∀ rest,
    scanMembers strict n (cs ++ '\x7d' :: rest) = .ok (fields, rest)

theorem CompleteAt.scanItems_succ {n : Nat} (complete : CompleteAt strict n) {cs : List Char}
    {vs : List Json} (spelled : SpellsItems strict vs cs) (fuel : 2 * cs.length + 1 ≤ n + 1)
    (rest : List Char) : scanItems strict (n + 1) (cs ++ ']' :: rest) = .ok (vs, rest) := by
  cases spelled with
  | last spelled spaces =>
      rw [List.length_append] at fuel
      rw [List.append_assoc]
      exact scanItems_last
        (complete.value spelled (by omega) _ (numberEnds_spaces spaces (by simp) rest))
        (skipSpace_spaces spaces rfl rest)
  | @more v items cs gap next others spelled spaces nextSpaces more =>
      simp only [List.length_append, List.length_cons] at fuel
      have after := complete.items more (by omega) rest
      rw [← (more.begins.append _).skipSpace_eq, ← skipSpace_append nextSpaces] at after
      simp only [List.append_assoc, List.cons_append]
      exact scanItems_more
        (complete.value spelled (by omega) _ (numberEnds_spaces spaces (by simp) _))
        (skipSpace_spaces spaces rfl _) after

/-- After a field the closing brace ends the reading and a comma continues it. -/
def scanAfterField (strict : Bool) (n : Nat) (field : String × Json) (rest : List Char) :
    Scan (List (String × Json)) :=
  match skipSpace rest with
  | '\x7d' :: rest => .ok ([field], rest)
  | ',' :: rest =>
      match scanMembers strict n (skipSpace rest) with
      | .ok (fields, rest) => .ok (field :: fields, rest)
      | .error e => .error e
  | rest => .error (.expectingComma, rest)

theorem scanMembers_named {n : Nat} {key : String} {name before after cs : List Char}
    (named : SpellsString strict key name) (beforeSpaces : Spaces before)
    (afterSpaces : Spaces after) (begins : BeginsValue cs) :
    scanMembers strict (n + 1) (name ++ (before ++ ':' :: (after ++ cs))) =
      match scanValue strict n cs with
      | .error e => .error e
      | .ok (value, rest) => scanAfterField strict n (key, value) rest := by
  obtain ⟨more, text, read⟩ := named.scanString_append
    (name ++ (before ++ ':' :: (after ++ cs))) (before ++ ':' :: (after ++ cs))
  rw [text] at read ⊢
  simp only [scanMembers, read, skipSpace_spaces beforeSpaces (m := ':') rfl,
    skipSpace_append afterSpaces, begins.skipSpace_eq]
  rfl

theorem CompleteAt.scanMembers_member {n : Nat} (complete : CompleteAt strict n) {cs : List Char}
    {field : String × Json} (spelled : SpellsMember strict field cs) (fuel : 2 * cs.length ≤ n)
    {rest : List Char} (ends : NumberEnds rest) :
    scanMembers strict (n + 1) (cs ++ rest) = scanAfterField strict n field rest := by
  cases spelled with
  | @colon key v name cs before after named beforeSpaces afterSpaces spelled =>
      simp only [List.length_append, List.length_cons] at fuel
      have first := complete.value spelled (by omega) rest ends
      simp only [List.append_assoc, List.cons_append]
      rw [scanMembers_named named beforeSpaces afterSpaces (spelled.begins.append rest), first]

theorem CompleteAt.scanMembers_succ {n : Nat} (complete : CompleteAt strict n) {cs : List Char}
    {fields : List (String × Json)} (spelled : SpellsMembers strict fields cs)
    (fuel : 2 * cs.length + 1 ≤ n + 1) (rest : List Char) :
    scanMembers strict (n + 1) (cs ++ '\x7d' :: rest) = .ok (fields, rest) := by
  cases spelled with
  | last spelled spaces =>
      rw [List.length_append] at fuel
      rw [List.append_assoc]
      rw [complete.scanMembers_member spelled (by omega) (numberEnds_spaces spaces (by simp) rest),
        scanAfterField, skipSpace_spaces spaces rfl rest]
      rfl
  | @more field fields cs gap next others spelled spaces nextSpaces more =>
      simp only [List.length_append, List.length_cons] at fuel
      have after := complete.members more (by omega) rest
      have gone : skipSpace (next ++ (others ++ '\x7d' :: rest)) = others ++ '\x7d' :: rest := by
        obtain ⟨body, rfl⟩ := more.begins
        exact skipSpace_spaces nextSpaces rfl _
      rw [← gone] at after
      simp only [List.append_assoc, List.cons_append]
      rw [complete.scanMembers_member spelled (by omega) (numberEnds_spaces spaces (by simp) _),
        scanAfterField, skipSpace_spaces spaces rfl]
      simp only [after]

/-- Where an array or an object ends does not depend on what follows. -/
theorem CompleteAt.scanValue_composite {n : Nat} (complete : CompleteAt strict n) {cs : List Char}
    {v : Json} (spelled : Spells strict v cs) (opening : ∃ c ∈ cs.head?, c = '[' ∨ c = '\x7b')
    (fuel : 2 * cs.length ≤ n + 1) (rest : List Char) :
    scanValue strict (n + 1) (cs ++ rest) = .ok (v, rest) := by
  cases spelled with
  | scalar spelled =>
      obtain ⟨c, head, mark⟩ := opening
      have other : ∀ c ∈ cs, c ≠ '[' ∧ c ≠ '\x7b' := by
        refine spelled.forall_mem (fun c digit => ?_) (List.all_iff_forall_prop.mp (by decide))
        constructor <;>
          · rintro rfl
            cases digit
      obtain ⟨noArray, noObject⟩ := other c (List.mem_of_mem_head? head)
      exact absurd mark (not_or.mpr ⟨noArray, noObject⟩)
  | string spelled =>
      obtain ⟨c, head, mark⟩ := opening
      cases spelled
      cases head
      exact absurd mark (by decide)
  | noItems spaces =>
      simp only [List.cons_append, List.append_assoc, List.nil_append, scanValue,
        skipSpace_spaces spaces (m := ']') rfl]
  | @array items gap cs spaces spelled =>
      simp only [List.length_append, List.length_cons, List.length_nil] at fuel
      have inside := complete.items spelled (by omega) rest
      have gone := (skipSpace_append spaces _).trans (spelled.begins.append (']' :: rest)).skipSpace_eq
      rw [← gone] at inside
      simp only [List.cons_append, List.append_assoc, List.nil_append]
      exact scanValue_array (by rw [gone]; exact spelled.begins.append _) inside
  | noFields spaces =>
      simp only [List.cons_append, List.append_assoc, List.nil_append, scanValue,
        skipSpace_spaces spaces (m := '\x7d') rfl]
  | @object fields gap cs spaces spelled =>
      simp only [List.length_append, List.length_cons, List.length_nil] at fuel
      have inside := complete.members spelled (by omega) rest
      obtain ⟨more, rfl⟩ := spelled.begins
      have gone : skipSpace (gap ++ '"' :: (more ++ '\x7d' :: rest)) = _ :=
        skipSpace_spaces spaces rfl _
      simp only [List.cons_append, List.append_assoc, List.nil_append] at inside ⊢
      simp only [scanValue, gone]
      split
      · next same => exact absurd (List.cons.inj same).1 (by decide)
      · rw [inside]

theorem CompleteAt.scanValue_succ {n : Nat} (complete : CompleteAt strict n) {cs : List Char}
    {v : Json} (spelled : Spells strict v cs) (fuel : 2 * cs.length ≤ n + 1) (rest : List Char)
    (ends : NumberEnds rest) : scanValue strict (n + 1) (cs ++ rest) = .ok (v, rest) := by
  cases spelled with
  | scalar spelled =>
      have read := spelled.scanScalar_append ends
      exact (scanValue_scalar strict n (scans_of_ok read)).trans read
  | string spelled =>
      obtain ⟨more, text, read⟩ := spelled.scanString_append (cs ++ rest) rest
      rw [text] at read ⊢
      simp only [scanValue, read]
  | noItems spaces => exact complete.scanValue_composite (.noItems spaces) ⟨_, rfl, .inl rfl⟩ fuel rest
  | array spaces spelled =>
      exact complete.scanValue_composite (.array spaces spelled) ⟨_, rfl, .inl rfl⟩ fuel rest
  | noFields spaces =>
      exact complete.scanValue_composite (.noFields spaces) ⟨_, rfl, .inr rfl⟩ fuel rest
  | object spaces spelled =>
      exact complete.scanValue_composite (.object spaces spelled) ⟨_, rfl, .inr rfl⟩ fuel rest

theorem completeAt (n : Nat) : CompleteAt strict n := by
  induction n with
  | zero =>
      refine ⟨?_, by omega, by omega⟩
      intro cs v spelled fuel
      have := spelled.length_pos
      omega
  | succ n complete =>
      exact ⟨complete.scanValue_succ, complete.scanItems_succ, complete.scanMembers_succ⟩

end Completeness

section Documents

variable {strict : Bool} {cs : List Char} {v : Json}

theorem read_eq_ok_iff_scan : read strict cs = .ok v ↔
    ∃ rest, scanValue strict (2 * cs.length + 2) (skipSpace cs) = .ok (v, rest) ∧
      skipSpace rest = [] := by
  unfold read
  split
  · next found => simp [found]
  · next value rest found =>
      split
      · next nothing => simp [found, nothing]
      · next more => simpa [found] using fun _ => more

/-- With depth enough, what is read up to the end is a spelling with blanks around it. -/
theorem scan_iff_spelled {depth : Nat} (deep : 2 * cs.length ≤ depth) :
    (∃ rest, scanValue strict depth (skipSpace cs) = .ok (v, rest) ∧ skipSpace rest = []) ↔
      ∃ before text after, Spaces before ∧ Spaces after ∧ Spells strict v text ∧
        cs = before ++ (text ++ after) := by
  constructor
  · rintro ⟨rest, found, nothing⟩
    obtain ⟨before, spaces, text⟩ := exists_spaces cs
    obtain ⟨front, written, spelled⟩ := (soundAt _).value found
    obtain ⟨after, afterSpaces, last⟩ := exists_spaces rest
    rw [nothing, List.append_nil] at last
    exact ⟨before, front, after, spaces, afterSpaces, spelled, by rw [text, written, last]⟩
  · rintro ⟨before, text, after, spaces, afterSpaces, spelled, rfl⟩
    have ends : NumberEnds after := by
      cases after with
      | nil => exact numberEnds_nil
      | cons c after =>
        have followed : NumberEnds (c :: (after ++ [','])) :=
          numberEnds_spaces afterSpaces (by simp) []
        rintro d ⟨⟩
        exact followed c rfl
    simp only [List.length_append] at deep
    have value := (completeAt depth).value spelled (by omega) after ends
    have gone := skipSpace_append afterSpaces []
    rw [List.append_nil] at gone
    rw [skipSpace_append spaces, (spelled.begins.append after).skipSpace_eq]
    exact ⟨after, value, gone⟩

/-- A text is read exactly if it is a spelling with blanks around it. -/
theorem read_eq_ok_iff (strict : Bool) (cs : List Char) (v : Json) :
    read strict cs = .ok v ↔ ∃ before text after, Spaces before ∧ Spaces after ∧
      Spells strict v text ∧ cs = before ++ (text ++ after) :=
  read_eq_ok_iff_scan.trans (scan_iff_spelled (by omega))

end Documents

end PromptCanvas.Json
