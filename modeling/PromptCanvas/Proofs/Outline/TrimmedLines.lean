import Mathlib.Data.List.Forall2
import PromptCanvas.Outline.Numbering
import PromptCanvas.Proofs.Text.Lines

/-! # The lines of a text

Blanks do not matter to the lines of a text: those around the whole of it (`trimmedLines_trim`),
those behind its lines (`trimmedLines_congr`), and those around the lines and between them in a text
that is written with gaps (`Spaced.trimmedLines_eq`). -/

set_option autoImplicit false

namespace PromptCanvas.Outline

section Joining

theorem trimmedLines_append (front back : List Char) :
    trimmedLines (front ++ '\n' :: back) = trimmedLines front ++ trimmedLines back := by
  rw [trimmedLines, Text.lines, Text.splitOn_append, List.map_append, List.filter_append]
  rfl

theorem trimmedLines_single {line : List Char} (unbroken : '\n' ∉ line)
    (trimmed : Text.trim line = line) (nonempty : line ≠ []) : trimmedLines line = [line] := by
  have one : Text.lines line = [line] := by
    have cut : Text.lines (List.intercalate ['\n'] [line]) = [line] :=
      Text.lines_intercalate (List.cons_ne_nil _ _) (List.forall_mem_singleton.mpr unbroken)
    rwa [List.intercalate_singleton] at cut
  rw [trimmedLines, one, List.map_singleton, trimmed, List.filter_singleton,
    List.isEmpty_eq_false_iff.mpr nonempty]
  rfl

theorem trimmedLines_intercalate {sep : List Char}
    (breaks : ∀ front back,
      trimmedLines (front ++ (sep ++ back)) = trimmedLines front ++ trimmedLines back)
    (texts : List (List Char)) :
    trimmedLines (List.intercalate sep texts) = texts.flatMap trimmedLines := by
  induction texts with
  | nil => rfl
  | cons text texts ih =>
      cases texts with
      | nil => simp [List.intercalate_singleton]
      | cons next more =>
          rw [List.intercalate_cons_cons, List.append_assoc, breaks, ih]
          rfl

end Joining

section Ends

def Padded (text line : List Char) : Prop :=
  ∃ back, (∀ c ∈ back, Text.isBlank c = true) ∧ text = line ++ back

theorem padded_self (line : List Char) : Padded line line :=
  ⟨[], nofun, (List.append_nil line).symm⟩

theorem Padded.cons {text line : List Char} (padded : Padded text line) (c : Char) :
    Padded (c :: text) (c :: line) := by
  obtain ⟨back, blank, rfl⟩ := padded
  exact ⟨back, blank, rfl⟩

theorem map_trim_congr {texts others : List (List Char)}
    (padded : List.Forall₂ Padded texts others) : texts.map Text.trim = others.map Text.trim := by
  induction padded with
  | nil => rfl
  | cons first _ ih =>
      obtain ⟨back, blank, rfl⟩ := first
      rw [List.map_cons, List.map_cons, ih, Text.trim_append_of_blank_end blank]

theorem trimmedLines_congr {text other : List Char}
    (padded : List.Forall₂ Padded (Text.lines text) (Text.lines other)) :
    trimmedLines text = trimmedLines other := by
  rw [trimmedLines, trimmedLines, map_trim_congr padded]

theorem lines_cons {c : Char} (other : c ≠ '\n') {cs first : List Char}
    {others : List (List Char)} (cut : Text.lines cs = first :: others) :
    Text.lines (c :: cs) = (c :: first) :: others := by
  rw [Text.lines] at cut ⊢
  rw [Text.splitOn, if_neg other, cut]

theorem trimmedLines_cons_of_blank {c : Char} (blank : Text.isBlank c = true) (cs : List Char) :
    trimmedLines (c :: cs) = trimmedLines cs := by
  by_cases newline : c = '\n'
  · rw [newline]
    exact trimmedLines_append [] cs
  · obtain ⟨first, others, cut⟩ := Text.exists_splitOn '\n' cs
    have front : ∀ d ∈ [c], Text.isBlank d = true := List.forall_mem_singleton.mpr blank
    have start := Text.trim_append_of_blank front first
    rw [List.singleton_append] at start
    rw [trimmedLines, trimmedLines, lines_cons newline cut, Text.lines, cut, List.map_cons,
      List.map_cons, start]

theorem forall₂_padded_lines {c : Char} (blank : Text.isBlank c = true) (other : c ≠ '\n')
    (cs : List Char) : List.Forall₂ Padded (Text.lines (cs ++ [c])) (Text.lines cs) := by
  induction cs with
  | nil =>
      have alone : Text.lines ([] ++ [c]) = [[c]] := lines_cons other rfl
      rw [alone]
      exact .cons ⟨[c], List.forall_mem_singleton.mpr blank, rfl⟩ .nil
  | cons d cs ih =>
      by_cases newline : d = '\n'
      · have cut : ∀ rest, Text.lines ('\n' :: rest) = [] :: Text.lines rest := fun _ => rfl
        rw [newline, List.cons_append, cut, cut]
        exact .cons (padded_self []) ih
      · obtain ⟨first, others, longer⟩ := Text.exists_splitOn '\n' (cs ++ [c])
        obtain ⟨line, rest, shorter⟩ := Text.exists_splitOn '\n' cs
        rw [Text.lines, longer, Text.lines, shorter, List.forall₂_cons] at ih
        rw [List.cons_append, lines_cons newline longer, lines_cons newline shorter]
        exact .cons (ih.1.cons d) ih.2

theorem trimmedLines_append_of_blank {back : List Char} (blank : ∀ c ∈ back, Text.isBlank c = true)
    (cs : List Char) : trimmedLines (cs ++ back) = trimmedLines cs := by
  induction back using List.reverseRecOn with
  | nil => rw [List.append_nil]
  | append_singleton back c ih =>
      obtain ⟨blanks, last⟩ := List.forall_mem_append.mp blank
      have lastBlank : Text.isBlank c = true := last c List.mem_cons_self
      rw [← List.append_assoc, ← ih blanks]
      by_cases newline : c = '\n'
      · rw [newline, trimmedLines_append]
        exact List.append_nil _
      · exact trimmedLines_congr (forall₂_padded_lines lastBlank newline _)

theorem trimmedLines_trim (cs : List Char) : trimmedLines (Text.trim cs) = trimmedLines cs := by
  obtain ⟨before, after, blankBefore, blankAfter, whole⟩ := Text.exists_trim cs
  have start : ∀ {front : List Char}, (∀ c ∈ front, Text.isBlank c = true) → ∀ rest,
      trimmedLines (front ++ rest) = trimmedLines rest := by
    intro front blank rest
    induction front with
    | nil => rfl
    | cons c front ih =>
        obtain ⟨first, others⟩ := List.forall_mem_cons.mp blank
        rw [List.cons_append, trimmedLines_cons_of_blank first, ih others]
  conv_rhs => rw [whole]
  rw [start blankBefore, trimmedLines_append_of_blank blankAfter]

end Ends

section Gaps

def IsGap (cs : List Char) : Prop := (∀ c ∈ cs, Text.isBlank c = true) ∧ '\n' ∉ cs

instance (cs : List Char) : Decidable (IsGap cs) :=
  decidable_of_iff (cs.all Text.isBlank = true ∧ '\n' ∉ cs) (and_congr_left' List.all_eq_true)

/-- Some lines as they are written, with blanks around them and blank lines between them. -/
inductive Spaced : List (List Char) → List (List Char) → Prop
  | none : Spaced [] []
  | gap {gap : List Char} {lines written : List (List Char)} (isGap : IsGap gap)
      (rest : Spaced lines written) : Spaced lines (gap :: written)
  | line {before after line : List Char} {lines written : List (List Char)}
      (isBefore : IsGap before) (isAfter : IsGap after) (rest : Spaced lines written) :
      Spaced (line :: lines) ((before ++ (line ++ after)) :: written)

theorem spaced_self (lines : List (List Char)) : Spaced lines lines := by
  induction lines with
  | nil => exact .none
  | cons line lines ih =>
      have alone : line = [] ++ (line ++ []) := by rw [List.append_nil, List.nil_append]
      have empty : IsGap [] := by decide
      conv => rhs; rw [alone]
      exact .line empty empty ih

structure IsLine (line : List Char) : Prop where
  unbroken : '\n' ∉ line
  trimmed : Text.trim line = line
  nonempty : line ≠ []

theorem trimmedLines_of_gap {gap : List Char} (isGap : IsGap gap) : trimmedLines gap = [] := by
  have blank := trimmedLines_append_of_blank isGap.1 []
  rwa [List.nil_append] at blank

theorem trimmedLines_surrounded {before line after : List Char} (isBefore : IsGap before)
    (isLine : IsLine line) (isAfter : IsGap after) :
    trimmedLines (before ++ (line ++ after)) = [line] := by
  have trimmed : Text.trim (before ++ (line ++ after)) = line := by
    obtain ⟨head, last⟩ := (Text.trim_eq_self_iff line).mp isLine.trimmed
    exact Text.trim_surrounded isBefore.1 isAfter.1 head last isLine.nonempty
  rw [← trimmedLines_trim, trimmed,
    trimmedLines_single isLine.unbroken isLine.trimmed isLine.nonempty]

theorem Spaced.trimmedLines_eq {lines written : List (List Char)} (spaced : Spaced lines written)
    (isLine : ∀ line ∈ lines, IsLine line) :
    trimmedLines (List.intercalate ['\n'] written) = lines := by
  rw [trimmedLines_intercalate trimmedLines_append]
  induction spaced with
  | none => rfl
  | gap isGap _ ih => rw [List.flatMap_cons, trimmedLines_of_gap isGap, ih isLine, List.nil_append]
  | line isBefore isAfter _ ih =>
      obtain ⟨own, others⟩ := List.forall_mem_cons.mp isLine
      rw [List.flatMap_cons, trimmedLines_surrounded isBefore own isAfter, ih others]
      rfl

theorem trimmedLines_of_lines {lines : List (List Char)} (isLine : ∀ line ∈ lines, IsLine line) :
    trimmedLines (List.intercalate ['\n'] lines) = lines := by
  have own : ∀ line ∈ lines, trimmedLines line = [line] := fun line listed =>
    trimmedLines_single (isLine line listed).unbroken (isLine line listed).trimmed
      (isLine line listed).nonempty
  rw [trimmedLines_intercalate trimmedLines_append, List.flatMap_congr own]
  exact List.flatMap_singleton' lines

theorem Spaced.exists_trim {first : List Char} {lines written : List (List Char)}
    (spaced : Spaced (first :: lines) written) (isLine : IsLine first) :
    ∃ more, Text.trim (List.intercalate ['\n'] written) = first ++ more := by
  generalize whole : first :: lines = all at spaced
  induction spaced with
  | none => cases whole
  | @gap gap rows written isGap rest ih =>
      obtain ⟨more, text⟩ := ih whole
      cases written with
      | nil =>
          subst whole
          cases rest
      | cons next written =>
          have blank : ∀ c ∈ gap ++ ['\n'], Text.isBlank c = true :=
            List.forall_mem_append.mpr ⟨isGap.1, List.forall_mem_singleton.mpr (by decide)⟩
          rw [List.intercalate_cons_cons, Text.trim_append_of_blank blank]
          exact ⟨more, text⟩
  | @line before after line rows written isBefore isAfter =>
      obtain ⟨rfl, -⟩ := List.cons.inj whole
      obtain ⟨head, last⟩ := (Text.trim_eq_self_iff first).mp isLine.trimmed
      have gone : Text.trimStart before = [] := List.dropWhile_eq_nil_iff.mpr isBefore.1
      rw [Text.intercalate_cons, List.append_assoc, List.append_assoc,
        Text.trim_append head last isLine.nonempty, gone]
      exact ⟨_, rfl⟩

theorem Spaced.not_mem {lines written : List (List Char)} (spaced : Spaced lines written) {c : Char}
    (visible : Text.isBlank c = false) (without : ∀ line ∈ lines, c ∉ line) :
    c ∉ List.intercalate ['\n'] written := by
  have newline : c ∉ ['\n'] := by
    rw [List.mem_singleton]
    rintro rfl
    cases visible
  have outside : ∀ {gap : List Char}, IsGap gap → c ∉ gap := by
    intro gap isGap member
    rw [isGap.1 c member] at visible
    cases visible
  refine Text.not_mem_intercalate newline ?_
  induction spaced with
  | none => exact nofun
  | gap isGap _ ih => exact List.forall_mem_cons.mpr ⟨outside isGap, ih without⟩
  | line isBefore isAfter _ ih =>
      obtain ⟨own, others⟩ := List.forall_mem_cons.mp without
      refine List.forall_mem_cons.mpr ⟨?_, ih others⟩
      rw [List.mem_append, List.mem_append, not_or, not_or]
      exact ⟨outside isBefore, own, outside isAfter⟩

end Gaps

end PromptCanvas.Outline
