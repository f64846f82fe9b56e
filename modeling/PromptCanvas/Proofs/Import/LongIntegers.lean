import PromptCanvas.Proofs.Import.Candidates
import PromptCanvas.Proofs.Json.DigitRuns

/-! # Integers that are too long

A text in which a reading comes upon an integer that is too long has all of its digits in a row
(`stands_of_extract`, `stands_of_read`): neither escaping the separators nor repairing the escapes
puts digits together.  Text without brackets and braces before the first mark of a document holds
the reading up exactly if it does so by itself (`outcome_parse_append_iff`). -/

set_option autoImplicit false

namespace PromptCanvas

namespace Json

open Document

section Written

variable {n : Overlong} {cs digits back : List Char}

theorem exists_digit_of_written (written : n.Written cs) : ∃ front d back more,
    cs = front ++ (d :: back ++ more) ∧ BeforeNumber front ∧ (d :: back).all Char.isDigit = true ∧
      (d :: back).length = n.digits ∧ digitLimit < n.digits := by
  obtain ⟨front, digits, back, text, before, all, length, long⟩ := written
  cases digits with
  | nil =>
      rw [← length] at long
      exact absurd long (Nat.not_lt_zero _)
  | cons d digits => exact ⟨front, d, digits, back, text, before, all, length, long⟩

theorem beforeNumber_of_blank {gap : List Char} (blank : ∀ c ∈ gap, Text.isBlank c = true) :
    BeforeNumber gap := by
  refine beforeNumber_of_forall fun c member => ⟨?_, (breaksNumbers_of_isBlank (blank c member)).1⟩
  rintro rfl
  cases blank _ member

theorem Overlong.Written.of_trim (written : n.Written (Text.trim cs)) : n.Written cs := by
  obtain ⟨before, after, blank, -, whole⟩ := Text.exists_trim cs
  rw [whole]
  exact written.append (beforeNumber_of_blank blank) after

/-- What is copied up to the backslashes that are put in goes on alike without a backslash. -/
theorem prefix_of_prefix_copied {copy : List Char → List Char} (none : copy [] = [])
    (copies : ∀ c cs, (copy (c :: cs)).head? = some '\\' ∨ copy (c :: cs) = c :: copy cs)
    (plain : '\\' ∉ digits) : ∀ {cs : List Char}, digits <+: copy cs → digits <+: cs := by
  induction digits with
  | nil => exact fun _ => List.nil_prefix
  | cons d digits ih =>
      intro cs begins
      obtain ⟨first, rest⟩ := not_or.mp (List.mem_cons.not.mp plain)
      cases cs with
      | nil =>
          rw [none] at begins
          exact begins
      | cons c cs =>
          rcases copies c cs with escape | same
          · obtain ⟨more, text⟩ := begins
            rw [← text] at escape
            exact absurd (Option.some.inj escape).symm first
          · rw [same, List.cons_prefix_cons] at begins
            exact List.cons_prefix_cons.mpr ⟨begins.1, ih rest begins.2⟩

theorem repairEscapes_copies (c : Char) (cs : List Char) :
    (repairEscapes (c :: cs)).head? = some '\\' ∨ repairEscapes (c :: cs) = c :: repairEscapes cs := by
  by_cases escape : c = '\\'
  · left
    rw [head?_repairEscapes, escape]
    rfl
  · exact .inr (repairEscapes_cons escape cs)

theorem escapeSeparators_copies (c : Char) (cs : List Char) :
    (escapeSeparators (c :: cs)).head? = some '\\' ∨
      escapeSeparators (c :: cs) = c :: escapeSeparators cs := by
  by_cases separator : IsSeparator c
  · obtain ⟨d, -, same⟩ := exists_escapeSeparators separator
    left
    rw [same]
    rfl
  · exact .inr (escapeSeparators_cons_of_not separator cs)

theorem exists_place_doubled {d : Char} {rest front : List Char} (other : d ≠ '\\')
    (ih : ∀ {front : List Char}, repairEscapes rest = front ++ back →
      ∃ before after, rest = before ++ after ∧ before.getLast? = front.getLast? ∧
        repairEscapes after = back)
    (text : '\\' :: '\\' :: d :: repairEscapes rest = front ++ back)
    (noEscape : back.head? ≠ some '\\') :
    ∃ before after, '\\' :: d :: rest = before ++ after ∧ before.getLast? = front.getLast? ∧
      repairEscapes after = back := by
  rcases front with _ | ⟨e, _ | ⟨f, _ | ⟨g, front⟩⟩⟩
  · exact absurd (congrArg List.head? text).symm noEscape
  · exact absurd (congrArg List.head? (List.cons.inj text).2).symm noEscape
  · simp only [List.cons_append, List.nil_append, List.cons.injEq] at text
    obtain ⟨rfl, rfl, rfl⟩ := text
    exact ⟨['\\'], d :: rest, rfl, rfl, repairEscapes_cons other rest⟩
  · simp only [List.cons_append, List.cons.injEq] at text
    obtain ⟨rfl, rfl, rfl, same⟩ := text
    obtain ⟨before, after, rfl, last, whole⟩ := ih same
    refine ⟨'\\' :: d :: before, after, rfl, ?_, whole⟩
    simp only [List.getLast?_cons, last]
    rfl

/-- A place of the repaired text that is not before a backslash is one of the text. -/
theorem exists_place_of_repairEscapes :
    ∀ {cs front : List Char}, repairEscapes cs = front ++ back → back.head? ≠ some '\\' →
      ∃ before after, cs = before ++ after ∧ before.getLast? = front.getLast? ∧
        repairEscapes after = back := by
  intro cs
  fun_induction repairEscapes cs with
  | case1 =>
      intro front text _
      obtain ⟨rfl, rfl⟩ := List.nil_eq_append_iff.mp text
      exact ⟨[], [], rfl, rfl, rfl⟩
  | case2 c =>
      intro front text _
      cases front with
      | nil => exact ⟨[], [c], rfl, rfl, text⟩
      | cons d front =>
          obtain ⟨rfl, rest⟩ := List.cons.inj text
          obtain ⟨rfl, rfl⟩ := List.nil_eq_append_iff.mp rest
          exact ⟨[c], [], rfl, rfl, rfl⟩
  | case3 c d rest stray ih =>
      intro front text noEscape
      rw [Bool.and_eq_true, decide_eq_true_iff, Bool.not_eq_true'] at stray
      obtain ⟨rfl, foreign⟩ := stray
      have other : d ≠ '\\' := by
        rintro rfl
        cases foreign
      exact exists_place_doubled other (fun text => ih text noEscape) text noEscape
  | case4 c d rest other ih =>
      intro front text noEscape
      cases front with
      | nil =>
          refine ⟨[], c :: d :: rest, rfl, rfl, ?_⟩
          rw [repairEscapes, if_neg other]
          exact text
      | cons e front =>
          obtain ⟨rfl, same⟩ := List.cons.inj text
          obtain ⟨before, after, whole, last, repaired⟩ := ih same noEscape
          refine ⟨c :: before, after, by rw [whole]; rfl, ?_, repaired⟩
          simp only [List.getLast?_cons, last]

theorem backslash_notMem (all : digits.all Char.isDigit = true) : '\\' ∉ digits := fun member =>
  absurd (List.all_eq_true.mp all _ member) (by decide)

theorem Overlong.Written.of_repairEscapes (written : n.Written (repairEscapes cs)) :
    n.Written cs := by
  obtain ⟨front, d, digits, more, text, place, all, number⟩ := exists_digit_of_written written
  have plain := backslash_notMem all
  obtain ⟨before, after, rfl, last, repaired⟩ := exists_place_of_repairEscapes text (by
    rintro ⟨⟩
    exact plain List.mem_cons_self)
  obtain ⟨rest, rfl⟩ := prefix_of_prefix_copied rfl repairEscapes_copies plain
    ⟨more, repaired.symm⟩
  exact ⟨before, d :: digits, rest, rfl, by rwa [BeforeNumber, last], all, number⟩

theorem BeforeNumber.of_append {front : List Char} (place : BeforeNumber (front ++ cs)) :
    BeforeNumber cs := by
  intro c last
  refine place c ?_
  rw [List.getLast?_append, Option.mem_def.mp last]
  rfl

theorem not_beforeNumber_of_escape {c d : Char} {front : List Char} (separator : IsSeparator c)
    (digit : d.isDigit = true) (text : escapeSeparators [c] = front ++ d :: back) :
    ¬ BeforeNumber front := by
  have inside : ∀ c ∈ ['\u2028', '\u2029'], ∀ k < (escapeSeparators [c]).length,
      ((escapeSeparators [c]).drop k).head?.any Char.isDigit = true →
        ((escapeSeparators [c]).take k).getLast?.any (fun c => c == 'u' || c.isDigit) = true :=
    List.forall_mem_cons.mpr ⟨by decide, List.forall_mem_singleton.mpr (by decide)⟩
  have short : front.length < (escapeSeparators [c]).length := by
    rw [text, List.length_append, List.length_cons]
    omega
  have behind := inside c (List.mem_pair.mpr separator) front.length short
  rw [text, List.drop_left, List.take_left] at behind
  intro place
  cases ends : front.getLast? with
  | none => simp [ends, digit] at behind
  | some last =>
      obtain ⟨noLetter, noDigit⟩ := place last ends
      simp [ends, digit, noLetter, noDigit] at behind

/-- Digits that are not behind a letter or a digit of an escape stand in the text itself. -/
theorem exists_place_of_escapeSeparators {d : Char} (digit : d.isDigit = true) :
    ∀ {cs front : List Char}, escapeSeparators cs = front ++ d :: back → BeforeNumber front →
      ∃ before after, cs = before ++ d :: after ∧ escapeSeparators after = back := by
  intro cs
  induction cs with
  | nil =>
      intro front text
      cases front <;> cases text
  | cons c cs ih =>
      intro front text place
      rw [← List.singleton_append, escapeSeparators_append] at text
      have later : ∀ front : List Char, escapeSeparators cs = front ++ d :: back →
          BeforeNumber front → ∃ before after, c :: cs = before ++ d :: after ∧
            escapeSeparators after = back := by
        intro front text place
        obtain ⟨before, after, rfl, same⟩ := ih text place
        exact ⟨c :: before, after, rfl, same⟩
      rcases List.append_eq_append_iff.mp text with ⟨more, rfl, rest⟩ | ⟨more, written, rest⟩
      · exact later more rest place.of_append
      · cases more with
        | nil => exact later [] rest.symm (fun _ => nofun)
        | cons e more =>
            obtain ⟨rfl, rfl⟩ := List.cons.inj rest
            by_cases separator : IsSeparator c
            · exact absurd place (not_beforeNumber_of_escape separator digit written)
            · have alone : escapeSeparators [c] = [c] := escapeSeparators_cons_of_not separator []
              rw [alone, List.singleton_eq_append_iff] at written
              rcases written with ⟨rfl, same⟩ | ⟨-, same⟩
              · obtain ⟨rfl, rfl⟩ := List.cons.inj same
                exact ⟨[], cs, rfl, rfl⟩
              · cases same

theorem Overlong.Written.stands_of_escapeSeparators (written : n.Written (escapeSeparators cs)) :
    n.StandsIn cs := by
  obtain ⟨front, d, digits, more, text, place, all, length, long⟩ :=
    exists_digit_of_written written
  have digit : d.isDigit = true := List.all_eq_true.mp all d List.mem_cons_self
  obtain ⟨before, after, rfl, same⟩ := exists_place_of_escapeSeparators digit text place
  obtain ⟨rest, rfl⟩ := prefix_of_prefix_copied rfl escapeSeparators_copies
    (fun member => backslash_notMem all (List.mem_cons_of_mem d member)) ⟨more, same.symm⟩
  exact ⟨long, d :: digits, ⟨before, rest, by simp⟩, all, length⟩

end Written

end Json

namespace Document

section Documents

variable {n : Json.Overlong} {cs : List Char}

theorem stands_of_parse (held : outcome (parse cs) = .error n) : n.StandsIn cs := by
  have written : n.Written (bare cs) := by
    rcases stops_of_parse held with plain | repaired
    · exact plain.written.of_trim
    · exact repaired.written.of_trim.of_repairEscapes
  exact written.stands_of_escapeSeparators.mono
    ((List.dropWhile_suffix _).isInfix.trans (infix_withoutFence cs))

theorem exists_outcome_of_short (short : cs.length ≤ Json.digitLimit) :
    ∃ found, outcome (parse cs) = .ok found := by
  cases held : outcome (parse cs) with
  | ok found => exact ⟨found, rfl⟩
  | error n => exact absurd (stands_of_parse held).lt_length (Nat.not_lt.mpr short)

theorem infix_of_innerFence? {inner : List Char} (found : innerFence? cs = some inner) :
    inner <:+: cs := by
  induction cs with
  | nil => cases found
  | cons c cs ih =>
      rw [innerFence?] at found
      split at found
      · next word rest tagged =>
          obtain ⟨behind, opened, read⟩ := Option.bind_eq_some_iff.mp tagged
          obtain ⟨⟨body, after⟩, cut, rfl⟩ := Option.map_eq_some_iff.mp found
          have whole := List.isPrefixOf?_eq_some_iff_append_eq.mp opened
          rw [← whole, (Text.word?_eq_some read).1, Text.eq_append_of_cut? cut]
          refine (Text.trim_infix body).trans ⟨fence ++ word, fence ++ after, by simp⟩
      · exact (ih found).trans (List.suffix_cons c cs).isInfix

theorem braceSpan?_infix {inner : List Char} (found : braceSpan? cs = some inner) :
    inner <:+: cs := by
  unfold braceSpan? at found
  split at found
  · cases found
  · next c rest start =>
      have initial : Text.dropEndWhile (· != '\x7d') rest <+: rest := List.rdropWhile_prefix _ _
      split at found
      · cases found
      · cases found
        have part : c :: rest <:+: cs := start ▸ (List.dropWhile_suffix _).isInfix
        exact ((List.cons_prefix_cons.mpr ⟨rfl, initial⟩).isInfix).trans part

/-- What holds the extraction up stands in the text. -/
theorem stands_of_extract {dropThoughts : Bool} (held : extract dropThoughts cs = .error n) :
    n.StandsIn cs := by
  have plain : extract false cs = .error n := by
    cases dropThoughts with
    | false => exact held
    | true =>
        rw [extract_true] at held
        cases found : extract false cs with
        | error m =>
            rw [found] at held
            exact held
        | ok j =>
            rw [found] at held
            cases held
  rw [extract_false] at plain
  rcases List.mem_cons.mp (mem_of_firstFound plain (by simp)) with whole | part
  · exact (stands_of_parse whole.symm).mono (Text.trim_infix cs)
  · obtain ⟨inner, found, held⟩ := List.mem_map.mp part
    refine (stands_of_parse held).mono (List.IsInfix.trans ?_ (Text.trim_infix cs))
    rcases Option.or_eq_some_iff.mp (Option.mem_toList.mp found) with fenced | ⟨-, braces⟩
    · exact infix_of_innerFence? fenced
    · exact braceSpan?_infix braces

end Documents

section Leading

open Json (BreaksNumbers LeadsLong)
open Text (SolidHead SolidLast)

variable {n : Json.Overlong} {cs front back : List Char} {c : Char}

theorem leads_trim : LeadsLong n (Text.trim cs) ↔ LeadsLong n (Text.trimStart cs) := by
  have text : Text.trim cs ++ (Text.trimStart cs).rtakeWhile Text.isBlank = Text.trimStart cs :=
    List.rdropWhile_append_rtakeWhile
  rw [← text]
  cases gap : (Text.trimStart cs).rtakeWhile Text.isBlank with
  | nil => rw [List.append_nil]
  | cons b gap' =>
      have blank : Text.isBlank b = true :=
        List.mem_rtakeWhile_imp (gap ▸ List.mem_cons_self : b ∈ List.rtakeWhile _ _)
      exact (LeadsLong.append_iff (breaksNumbers_of_isBlank blank)).symm

theorem leads_trimStart_append (breaks : BreaksNumbers c) (solid : Text.isBlank c = false) :
    LeadsLong n (Text.trimStart (front ++ c :: back)) ↔ LeadsLong n (Text.trimStart front) := by
  rw [Text.trimStart_append (by rintro d ⟨⟩; exact solid), LeadsLong.append_iff breaks]

theorem leads_trimStart_concat (blank : Text.isBlank c = true) :
    LeadsLong n (Text.trimStart (front ++ [c])) ↔ LeadsLong n (Text.trimStart front) := by
  rw [Text.trimStart, List.dropWhile_append]
  split
  · next nothing =>
      have gone : [c].dropWhile Text.isBlank = [] := by simp [blank]
      rw [gone, Text.trimStart, List.isEmpty_iff.mp nothing]
  · exact LeadsLong.append_iff (breaksNumbers_of_isBlank blank)

theorem exists_backslash (escape : '\\' ∈ cs) : ∃ front back others, cs = front ++ '\\' :: back ∧
    repairEscapes cs = front ++ '\\' :: others := by
  induction cs with
  | nil => cases escape
  | cons c cs ih =>
      by_cases here : c = '\\'
      · obtain ⟨others, repaired⟩ := List.head?_eq_some_iff.mp (head?_repairEscapes (c :: cs))
        exact ⟨[], cs, others, by rw [here]; rfl, by rw [repaired, here]; rfl⟩
      · obtain ⟨front, back, others, rfl, repaired⟩ :=
          ih ((List.mem_cons.mp escape).resolve_left (Ne.symm here))
        exact ⟨c :: front, back, others, rfl, by rw [repairEscapes_cons here, repaired]; rfl⟩

theorem repairEscapes_append_of_notMem (plain : '\\' ∉ front) (cs : List Char) :
    repairEscapes (front ++ cs) = front ++ repairEscapes cs := by
  induction front with
  | nil => rfl
  | cons c front ih =>
      obtain ⟨other, rest⟩ := not_or.mp (List.mem_cons.not.mp plain)
      rw [List.cons_append, repairEscapes_cons (Ne.symm other), ih rest]
      rfl

theorem leads_repairEscapes :
    LeadsLong n (Text.trimStart (repairEscapes cs)) ↔ LeadsLong n (Text.trimStart cs) := by
  by_cases escape : '\\' ∈ cs
  · obtain ⟨front, back, others, rfl, repaired⟩ := exists_backslash escape
    rw [repaired, leads_trimStart_append (by decide) (by decide),
      leads_trimStart_append (by decide) (by decide)]
  · have same := repairEscapes_append_of_notMem escape []
    rw [List.append_nil] at same
    rw [same, repairEscapes, List.append_nil]

theorem repairEscapes_append : ∀ {cs : List Char}, (∀ c ∈ cs.getLast?, c ≠ '\\') →
    ∀ back, repairEscapes (cs ++ back) = repairEscapes cs ++ repairEscapes back := by
  intro cs
  fun_induction repairEscapes cs with
  | case1 => exact fun _ _ => rfl
  | case2 c => exact fun last back => repairEscapes_cons (last c rfl) back
  | case3 c d rest stray ih =>
      intro last back
      have later : ∀ c ∈ rest.getLast?, c ≠ '\\' := by
        intro c final
        refine last c ?_
        simp only [List.getLast?_cons, Option.mem_def.mp final]
        rfl
      rw [List.cons_append, List.cons_append, repairEscapes, if_pos stray, ih later]
      rfl
  | case4 c d rest other ih =>
      intro last back
      have later : ∀ c ∈ (d :: rest).getLast?, c ≠ '\\' := fun c final =>
        last c (by rw [List.getLast?_cons_cons]; exact final)
      rw [List.cons_append, List.cons_append, repairEscapes, if_neg other, ← List.cons_append,
        ih later]
      rfl

theorem head?_trim_repairEscapes (cs : List Char) :
    (Text.trim (repairEscapes cs)).head? = (Text.trim cs).head? := by
  rw [Text.head?_trim, Text.head?_trim, find?_repairEscapes]

/-- A text that begins with no array and no object holds the reader up exactly if it leads with
an integer that is too long. -/
theorem outcome_parse_error_iff (other : ∀ c ∈ (Text.trim (bare cs)).head?, c ≠ '[' ∧ c ≠ '\x7b') :
    outcome (parse cs) = .error n ↔ LeadsLong n (Text.trimStart (bare cs)) := by
  have noSpace : ∀ (cs : List Char), ∀ c ∈ (Text.trim cs).head?, Json.isJsonSpace c = false := by
    intro cs c head
    rw [← Bool.not_eq_true]
    intro space
    have solid := Text.solidHead_trim cs c head
    rw [Json.isBlank_of_isJsonSpace space] at solid
    cases solid
  constructor
  · intro held
    rcases stops_of_parse held with plain | repaired
    · exact leads_trim.mp (plain.leads (noSpace _) other)
    · rw [← leads_repairEscapes]
      refine leads_trim.mp (repaired.leads (noSpace _) ?_)
      rwa [head?_trim_repairEscapes]
  · intro leads
    rw [outcome_parse, outcome_read_error_iff.mpr (leads_trim.mpr leads).stops]
    rfl

theorem leads_escapeSeparators {gap : List Char} (blank : ∀ c ∈ gap, Text.isBlank c = true) :
    LeadsLong n (Text.trimStart (front ++ escapeSeparators gap)) ↔ LeadsLong n (Text.trimStart front) := by
  induction gap generalizing front with
  | nil =>
      have none : escapeSeparators [] = [] := rfl
      rw [none, List.append_nil]
  | cons b gap ih =>
      obtain ⟨first, rest⟩ := List.forall_mem_cons.mp blank
      by_cases separator : IsSeparator b
      · obtain ⟨d, -, same⟩ := exists_escapeSeparators separator
        rw [same, leads_trimStart_append (by decide) (by decide)]
      · rw [escapeSeparators_cons_of_not separator, List.append_cons, ih rest,
          leads_trimStart_concat first]

theorem dropWhile_append_of_other {p : Char → Bool} (other : ∀ c ∈ back.head?, p c = false) :
    (front ++ back).dropWhile p = front.dropWhile p ++ back := by
  rw [List.dropWhile_append]
  split
  · next nothing =>
      rw [List.isEmpty_iff.mp nothing, List.nil_append]
      cases back with
      | nil => rfl
      | cons c back => rw [List.dropWhile_cons_of_neg (by simp [other c rfl])]
  · rfl

/-- The text before a mark, as it begins a candidate. -/
def opening (cs : List Char) : List Char :=
  escapeSeparators ((Text.trimStart cs).dropWhile (· == '\ufeff'))

theorem leads_bare (plain : '\x60' ∉ cs) :
    LeadsLong n (Text.trimStart (bare cs)) ↔ LeadsLong n (Text.trimStart (opening cs)) := by
  have text : Text.trim cs ++ (Text.trimStart cs).rtakeWhile Text.isBlank = Text.trimStart cs :=
    List.rdropWhile_append_rtakeWhile
  have blank : ∀ c ∈ (Text.trimStart cs).rtakeWhile Text.isBlank, Text.isBlank c = true :=
    fun _ member => List.mem_rtakeWhile_imp member
  have noFence : ∀ c ∈ (Text.trim cs).head?, c ≠ '\x60' := by
    rintro c head rfl
    exact plain ((Text.trim_infix cs).subset (List.mem_of_mem_head? head))
  have noMark : ∀ c ∈ ((Text.trimStart cs).rtakeWhile Text.isBlank).head?,
      (c == '\ufeff') = false := by
    intro c head
    rw [beq_eq_false_iff_ne]
    rintro rfl
    cases blank _ (List.mem_of_mem_head? head)
  rw [opening, ← text, dropWhile_append_of_other noMark, escapeSeparators_append,
    leads_escapeSeparators blank, bare, withoutFence_of_head noFence]

theorem bare_append {middle : List Char}
    (whole : withoutFence (front ++ (middle ++ back)) = Text.trim (front ++ (middle ++ back)))
    (head : SolidHead middle) (last : SolidLast middle) (nonempty : middle ≠ [])
    (noMark : ∀ c ∈ middle.head?, c ≠ '\ufeff') :
    bare (front ++ (middle ++ back)) =
      opening front ++ escapeSeparators (middle ++ Text.trimEnd back) := by
  have other : ∀ c ∈ (middle ++ Text.trimEnd back).head?, (c == '\ufeff') = false := by
    intro c begins
    rw [List.head?_append_of_ne_nil _ nonempty] at begins
    exact beq_eq_false_iff_ne.mpr (noMark c begins)
  rw [bare, whole, Text.trim_append head last nonempty, dropWhile_append_of_other other,
    escapeSeparators_append]
  rfl

theorem exists_bare_append
    (whole : withoutFence (front ++ c :: back) = Text.trim (front ++ c :: back)) (small : c.toNat < 0x80) (solid : Text.isBlank c = false) :
    ∃ others, bare (front ++ c :: back) = opening front ++ c :: others := by
  have same : front ++ c :: back = front ++ ([c] ++ back) := rfl
  rw [same] at whole
  refine ⟨escapeSeparators (Text.trimEnd back), ?_⟩
  rw [same, bare_append whole ?_ ?_ (List.cons_ne_nil _ _), List.singleton_append,
    escapeSeparators_cons small]
  · rintro d ⟨⟩ rfl
    exact absurd small (by decide)
  · rintro d ⟨⟩
    exact solid
  · rintro d ⟨⟩
    exact solid

theorem outcome_parse_ones {k : Nat} (long : Json.digitLimit < k) :
    outcome (parse (List.replicate k '1')) = .error ⟨k⟩ := by
  have only : ∀ c ∈ List.replicate k '1', c = '1' := fun c member => List.eq_of_mem_replicate member
  have one : Text.IsPrinted '1' := by decide
  have edged : Text.Edged (List.replicate k '1') := by
    refine ⟨?_, fun c head => ?_, fun c last => ?_⟩
    · rw [ne_eq, List.replicate_eq_nil_iff]
      omega
    · rwa [only c (List.mem_of_mem_head? head)]
    · rwa [only c (List.mem_of_getLast? last)]
  have ascii : Text.Ascii (List.replicate k '1') := by
    intro c member
    rw [only c member]
    decide
  rw [outcome_parse_edged edged, escapeSeparators_ascii ascii,
    outcome_read_error_iff.mpr (Json.leads_replicate long).stops]
  rfl

end Leading

section Headers

open Json (Spells)
open Text (SolidLast)

variable {n : Json.Overlong} {cs more : List Char}

/-- What the first fenced document of a text comes to. -/
def fencedOutcome (cs : List Char) : Except Json.Overlong (Option Json) :=
  ((innerFence? cs).map fun inner => outcome (parse inner)).getD (.ok none)

theorem stands_of_fencedOutcome (held : fencedOutcome cs = .error n) : n.StandsIn cs := by
  unfold fencedOutcome at held
  cases found : innerFence? cs with
  | none =>
      rw [found] at held
      cases held
  | some inner =>
      rw [found] at held
      exact (stands_of_parse held).mono (infix_of_innerFence? found)

theorem exists_fencedOutcome_of_short (short : cs.length ≤ Json.digitLimit) :
    ∃ found, fencedOutcome cs = .ok found := by
  cases held : fencedOutcome cs with
  | ok found => exact ⟨found, rfl⟩
  | error n => exact absurd (stands_of_fencedOutcome held).lt_length (Nat.not_lt.mpr short)

theorem outcome_read_behind {strict : Bool} {v : Json} (spelled : Spells strict v cs)
    (opening : ∃ c ∈ cs.head?, c = '[' ∨ c = '\x7b') (nonempty : more ≠ [])
    (last : SolidLast more) : outcome (Json.read strict (cs ++ more)) = .ok none := by
  have visible : Json.skipSpace more ≠ [] := by
    intro nothing
    obtain ⟨gap, spaces, text⟩ := Json.exists_spaces more
    rw [nothing, List.append_nil] at text
    obtain ⟨final, ends⟩ := Option.isSome_iff_exists.mp (List.getLast?_isSome.mpr nonempty)
    have solid := last final ends
    rw [Json.isBlank_of_isJsonSpace (spaces final (text ▸ List.mem_of_getLast? ends))] at solid
    cases solid
  match found : outcome (Json.read strict (cs ++ more)) with
  | .ok none => rfl
  | .ok (some w) =>
      exact absurd (outcome_eq_some_iff.mp found) (spelled.read_ne_ok opening visible)
  | .error n => exact absurd (outcome_read_error_iff.mp found) (spelled.not_stops opening more)

/-- The number of a header is a document, so that the text behind it is at fault. -/
theorem outcome_parse_header (trimmed : Text.trim ("[1]".toList ++ more) = "[1]".toList ++ more)
    (nonempty : more ≠ []) : outcome (parse ("[1]".toList ++ more)) = .ok none := by
  have reading : Json.read false "[1]".toList = .ok (.array [.int 1]) := rfl
  have spelled : Spells false (.array [.int 1]) "[1]".toList := Json.spells_trim_of_read reading
  have opening : ∃ c ∈ "[1]".toList.head?, c = '[' ∨ c = '\x7b' := ⟨_, rfl, .inl rfl⟩
  have candidate : bare ("[1]".toList ++ more) = "[1]".toList ++ escapeSeparators more := by
    rw [bare_of_printed (by rw [trimmed]; rintro c ⟨⟩; decide), trimmed, escapeSeparators_append]
    rfl
  have last : SolidLast more :=
    (((Text.trim_eq_self_iff _).mp trimmed).2).back (List.suffix_append _ _)
  have sameLast := getLast?_escapeSeparators last
  have escaped : SolidLast (escapeSeparators more) := by rwa [SolidLast, sameLast]
  have repaired : SolidLast (repairEscapes (escapeSeparators more)) := by
    rwa [SolidLast, getLast?_repairEscapes, sameLast]
  have some : escapeSeparators more ≠ [] := by
    intro nothing
    rw [nothing, List.getLast?_nil, eq_comm, List.getLast?_eq_none_iff] at sameLast
    exact nonempty sameLast
  have still : repairEscapes (escapeSeparators more) ≠ [] := by
    intro nothing
    have first := head?_repairEscapes (escapeSeparators more)
    rw [nothing, List.head?_nil, eq_comm, List.head?_eq_none_iff] at first
    exact some first
  have plain : Text.trim ("[1]".toList ++ escapeSeparators more) =
      "[1]".toList ++ escapeSeparators more := by
    have edges := trim_escapeSeparators trimmed
    rw [escapeSeparators_append] at edges
    exact edges
  rw [outcome_parse, candidate, trim_repairEscapes plain, plain,
    repairEscapes_append_of_notMem (by decide),
    outcome_read_behind spelled opening some escaped,
    outcome_read_behind spelled opening still repaired]
  rfl

end Headers

end Document

namespace Import

theorem stands_of_read {n : Json.Overlong} {text : String} (held : read text = .error n) :
    n.StandsIn text.toList := by
  rw [read_eq] at held
  split at held
  · cases held
  · exact Document.stands_of_extract ((jsonGraph_eq_error_iff _).mp held)

end Import

end PromptCanvas
