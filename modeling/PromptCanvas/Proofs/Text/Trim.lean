import Mathlib.Data.List.DropRight
import PromptCanvas.Text.Blank

/-! # Trimmed texts

`trim_eq_self_iff`: trimming leaves a text as it is exactly if no blank stands at
its two ends; in particular trimming twice is trimming once (`trim_trim`).  Around a text
with solid ends trimming leaves the text and trims what stands before and after it
(`trim_append`). -/

set_option autoImplicit false

namespace PromptCanvas.Text

section Ends

/-- A text that does not begin with a blank. -/
def SolidHead (cs : List Char) : Prop := ∀ c ∈ cs.head?, isBlank c = false

def SolidLast (cs : List Char) : Prop := ∀ c ∈ cs.getLast?, isBlank c = false

theorem dropWhile_eq_self_of_solidHead {cs : List Char} (solid : SolidHead cs) :
    cs.dropWhile isBlank = cs := by
  cases cs with
  | nil => rfl
  | cons c rest => exact List.dropWhile_cons_of_neg (by simp [solid c rfl])

theorem solidHead_dropWhile (cs : List Char) : SolidHead (cs.dropWhile isBlank) := by
  intro c head
  have := List.head?_dropWhile_not isBlank cs
  rw [Option.mem_def.mp head] at this
  simpa using this

theorem solidLast_iff (cs : List Char) : SolidLast cs ↔ SolidHead cs.reverse := by
  rw [SolidLast, SolidHead, List.head?_reverse]

theorem SolidHead.front {front cs : List Char} (initial : front <+: cs) (solid : SolidHead cs) :
    SolidHead front := by
  obtain ⟨back, rfl⟩ := initial
  intro c head
  cases front with
  | nil => simp at head
  | cons d rest => exact solid c (by simpa using head)

theorem SolidLast.back {back cs : List Char} (final : back <:+ cs) (solid : SolidLast cs) :
    SolidLast back := by
  obtain ⟨front, rfl⟩ := final
  intro c last
  refine solid c ?_
  rw [List.getLast?_append, Option.mem_def.mp last]
  rfl

theorem solidHead_append {front : List Char} (solid : SolidHead front) (nonempty : front ≠ [])
    (back : List Char) : SolidHead (front ++ back) := by
  intro c head
  rw [List.head?_append_of_ne_nil _ nonempty] at head
  exact solid c head

theorem solidLast_append {back : List Char} (solid : SolidLast back) (nonempty : back ≠ [])
    (front : List Char) : SolidLast (front ++ back) := by
  intro c last
  rw [List.getLast?_append_of_ne_nil _ nonempty] at last
  exact solid c last

end Ends

section Trimming

theorem trimEnd_initial (cs : List Char) : trimEnd cs <+: cs := List.rdropWhile_prefix isBlank cs

theorem solidLast_trimEnd (cs : List Char) : SolidLast (trimEnd cs) := by
  rw [solidLast_iff, trimEnd, dropEndWhile, List.reverse_reverse]
  exact solidHead_dropWhile _

theorem trimEnd_eq_self {cs : List Char} (solid : SolidLast cs) : trimEnd cs = cs := by
  rw [trimEnd, dropEndWhile, dropWhile_eq_self_of_solidHead ((solidLast_iff cs).mp solid),
    List.reverse_reverse]

theorem solidHead_trim (cs : List Char) : SolidHead (trim cs) :=
  (solidHead_dropWhile cs).front (trimEnd_initial _)

theorem trim_infix (cs : List Char) : trim cs <:+: cs :=
  (trimEnd_initial _).isInfix.trans (List.dropWhile_suffix _).isInfix

theorem solidLast_trim (cs : List Char) : SolidLast (trim cs) := solidLast_trimEnd _

theorem trim_eq_self_iff (cs : List Char) : trim cs = cs ↔ SolidHead cs ∧ SolidLast cs := by
  constructor
  · intro same
    exact ⟨same ▸ solidHead_trim cs, same ▸ solidLast_trim cs⟩
  · rintro ⟨head, last⟩
    rw [trim, trimStart, dropWhile_eq_self_of_solidHead head, trimEnd_eq_self last]

theorem trim_eq_self_congr {cs other : List Char} (trimmed : trim cs = cs)
    (head : other.head? = cs.head?) (last : other.getLast? = cs.getLast?) : trim other = other := by
  obtain ⟨first, final⟩ := (trim_eq_self_iff cs).mp trimmed
  refine (trim_eq_self_iff other).mpr ⟨?_, ?_⟩
  · rw [SolidHead, head]
    exact first
  · rw [SolidLast, last]
    exact final

theorem trim_trim (cs : List Char) : trim (trim cs) = trim cs :=
  (trim_eq_self_iff _).mpr ⟨solidHead_trim cs, solidLast_trim cs⟩

end Trimming

section Surroundings

variable {front middle back : List Char}

theorem trimEnd_append (last : SolidLast middle) :
    trimEnd (middle ++ back) = middle ++ trimEnd back := by
  induction back using List.reverseRecOn with
  | nil =>
      rw [List.append_nil, trimEnd_eq_self last]
      exact (List.append_nil _).symm
  | append_singleton back c ih =>
      rw [← List.append_assoc]
      by_cases blank : isBlank c = true
      · exact (List.rdropWhile_concat_pos _ _ _ blank).trans
          (ih.trans (congrArg _ (List.rdropWhile_concat_pos _ _ _ blank).symm))
      · exact (List.rdropWhile_concat_neg _ _ _ blank).trans
          ((List.append_assoc ..).trans
            (congrArg _ (List.rdropWhile_concat_neg _ _ _ blank).symm))

theorem trimStart_append (head : SolidHead middle) :
    trimStart (front ++ middle) = trimStart front ++ middle := by
  induction front with
  | nil => exact dropWhile_eq_self_of_solidHead head
  | cons c front ih =>
      by_cases blank : isBlank c = true
      · exact (List.dropWhile_cons_of_pos blank).trans
          (ih.trans (congrArg (· ++ middle) (List.dropWhile_cons_of_pos blank).symm))
      · exact (List.dropWhile_cons_of_neg blank).trans
          (congrArg (· ++ middle) (List.dropWhile_cons_of_neg blank).symm)

/-- What stands around a text with solid ends is trimmed on its outer side. -/
theorem trim_append (head : SolidHead middle) (last : SolidLast middle) (nonempty : middle ≠ []) :
    trim (front ++ (middle ++ back)) = trimStart front ++ (middle ++ trimEnd back) := by
  rw [trim, trimStart_append (solidHead_append head nonempty back), ← List.append_assoc,
    trimEnd_append (solidLast_append last nonempty _), List.append_assoc]

theorem trim_surrounded {before text after : List Char}
    (blankBefore : ∀ c ∈ before, isBlank c = true)
    (blankAfter : ∀ c ∈ after, isBlank c = true) (head : SolidHead text) (last : SolidLast text)
    (nonempty : text ≠ []) : trim (before ++ (text ++ after)) = text := by
  have start : trimStart before = [] := List.dropWhile_eq_nil_iff.mpr blankBefore
  have stop : trimEnd after = [] := List.rdropWhile_eq_nil_iff.mpr blankAfter
  rw [trim_append head last nonempty, start, stop, List.nil_append, List.append_nil]

/-- A text of two texts that are solid on its outer sides is trimmed already. -/
theorem trim_eq_append (head : SolidHead front) (last : SolidLast back) (start : front ≠ [])
    (stop : back ≠ []) : trim (front ++ back) = front ++ back :=
  (trim_eq_self_iff _).mpr ⟨solidHead_append head start back, solidLast_append last stop front⟩

theorem exists_trim (cs : List Char) : ∃ before after, (∀ c ∈ before, isBlank c = true) ∧
    (∀ c ∈ after, isBlank c = true) ∧ cs = before ++ (trim cs ++ after) := by
  refine ⟨cs.takeWhile isBlank, (trimStart cs).rtakeWhile isBlank,
    fun _ member => List.mem_takeWhile_imp member, fun _ member => List.mem_rtakeWhile_imp member,
    ?_⟩
  have ends : trim cs ++ (trimStart cs).rtakeWhile isBlank = trimStart cs :=
    List.rdropWhile_append_rtakeWhile
  rw [ends, trimStart, List.takeWhile_append_dropWhile]

end Surroundings

section Blanks

theorem isBlankText_iff (cs : List Char) : isBlankText cs = true ↔ trim cs = [] := by
  rw [isBlankText, List.all_eq_true]
  constructor
  · intro blank
    rw [trim, trimStart, List.dropWhile_eq_nil_iff.mpr blank]
    rfl
  · intro nothing
    have rest : ∀ c ∈ cs.dropWhile isBlank, isBlank c = true :=
      List.rdropWhile_eq_nil_iff.mp nothing
    have none : cs.dropWhile isBlank = [] := by
      cases same : cs.dropWhile isBlank with
      | nil => rfl
      | cons c more =>
          have solid := solidHead_dropWhile cs c (by rw [same]; rfl)
          rw [rest c (by rw [same]; exact List.mem_cons_self ..)] at solid
          exact absurd solid (by simp)
    exact List.dropWhile_eq_nil_iff.mp none

theorem isBlankString_iff (s : String) : isBlankString s = true ↔ trimmed s = "" := by
  rw [isBlankString, isBlankText_iff, trimmed, ← String.toList_inj]
  simp

theorem trimmed_ne_empty {cs : List Char} {c : Char} (member : c ∈ cs)
    (visible : isBlank c = false) : trimmed (String.ofList cs) ≠ "" := by
  rw [ne_eq, ← isBlankString_iff, isBlankString, String.toList_ofList, isBlankText,
    List.all_eq_true]
  intro blank
  rw [blank c member] at visible
  cases visible

theorem exists_visible {cs : List Char} (some : trim cs ≠ []) :
    ∃ c ∈ trim cs, isBlank c = false := by
  obtain ⟨c, more, shape⟩ := List.exists_cons_of_ne_nil some
  exact ⟨c, by simp [shape], solidHead_trim cs c (by simp [shape])⟩

theorem trimmed_ofList_trim {cs : List Char} (some : trim cs ≠ []) :
    trimmed (String.ofList (trim cs)) ≠ "" := by
  obtain ⟨c, member, visible⟩ := exists_visible some
  exact trimmed_ne_empty member visible

theorem trim_ne_nil {cs : List Char} (head : SolidHead cs) (nonempty : cs ≠ []) :
    trim cs ≠ [] := by
  obtain ⟨c, more, rfl⟩ := List.exists_cons_of_ne_nil nonempty
  have visible : isBlank c = false := head c rfl
  rw [ne_eq, ← isBlankText_iff, isBlankText, List.all_cons, visible]
  exact Bool.false_ne_true

end Blanks

section Outside

variable {front back cs : List Char}

theorem trim_append_of_blank (blank : ∀ c ∈ front, isBlank c = true) (cs : List Char) :
    trim (front ++ cs) = trim cs := by
  rw [trim, trim, trimStart, trimStart, List.dropWhile_append_of_pos blank]

theorem trimEnd_append_of_blank (blank : ∀ c ∈ back, isBlank c = true) (cs : List Char) :
    trimEnd (cs ++ back) = trimEnd cs := by
  have reversed : ∀ c ∈ back.reverse, isBlank c = true := fun c member =>
    blank c (List.mem_reverse.mp member)
  rw [trimEnd, trimEnd, dropEndWhile, dropEndWhile, List.reverse_append,
    List.dropWhile_append_of_pos reversed]

/-- What stands before a text that is not blank is not trimmed at its end. -/
theorem trimEnd_append_of_solid (front : List Char) (solid : isBlankText cs = false) :
    trimEnd (front ++ cs) = front ++ trimEnd cs := by
  have kept : trimEnd cs ≠ [] := by
    intro nothing
    have blank : ∀ c ∈ cs, isBlank c = true := List.rdropWhile_eq_nil_iff.mp nothing
    rw [isBlankText, List.all_eq_true.mpr blank] at solid
    cases solid
  have after : trimEnd (cs.rtakeWhile isBlank) = [] :=
    List.rdropWhile_eq_nil_iff.mpr fun _ member => List.mem_rtakeWhile_imp member
  have last : SolidLast (front ++ trimEnd cs) :=
    solidLast_append (solidLast_trimEnd cs) kept front
  have whole : trimEnd cs ++ cs.rtakeWhile isBlank = cs := List.rdropWhile_append_rtakeWhile
  conv_lhs => rw [← whole]
  rw [← List.append_assoc, trimEnd_append last, after, List.append_nil]

theorem trim_trimEnd (cs : List Char) : trim (trimEnd cs) = trim cs := by
  by_cases nothing : trim cs = []
  · have blank := (isBlankText_iff cs).mpr nothing
    have gone : trimEnd cs = [] := List.rdropWhile_eq_nil_iff.mpr (List.all_eq_true.mp blank)
    rw [gone, nothing]
    rfl
  · obtain ⟨before, after, blankBefore, blankAfter, whole⟩ := exists_trim cs
    have last : SolidLast (before ++ trim cs) :=
      solidLast_append (solidLast_trim cs) nothing before
    have gone : trimEnd after = [] := List.rdropWhile_eq_nil_iff.mpr blankAfter
    have cut : trimEnd cs = before ++ (trim cs ++ []) := by
      conv_lhs => rw [whole, ← List.append_assoc, trimEnd_append last, gone]
      rw [List.append_assoc]
    rw [cut]
    exact trim_surrounded blankBefore nofun (solidHead_trim cs) (solidLast_trim cs) nothing

theorem trim_append_of_blank_end (blank : ∀ c ∈ back, isBlank c = true) (cs : List Char) :
    trim (cs ++ back) = trim cs := by
  rw [← trim_trimEnd, trimEnd_append_of_blank blank, trim_trimEnd]

theorem mem_trim {c : Char} (member : c ∈ cs) (visible : isBlank c = false) : c ∈ trim cs := by
  obtain ⟨before, after, blankBefore, blankAfter, whole⟩ := exists_trim cs
  rw [whole, List.mem_append, List.mem_append] at member
  rcases member with blank | inside | blank
  · simp [blankBefore c blank] at visible
  · exact inside
  · simp [blankAfter c blank] at visible

theorem isEmpty_trim (cs : List Char) : (trim cs).isEmpty = isBlankText cs := by
  rw [Bool.eq_iff_iff, List.isEmpty_iff, isBlankText_iff]

theorem isBlankText_append (cs back : List Char) :
    isBlankText (cs ++ back) = (isBlankText cs && isBlankText back) := List.all_append

theorem isBlankText_trimEnd (cs : List Char) : isBlankText (trimEnd cs) = isBlankText cs := by
  have after : (cs.rtakeWhile isBlank).all isBlank = true :=
    List.all_eq_true.mpr fun _ member => List.mem_rtakeWhile_imp member
  have whole : trimEnd cs ++ cs.rtakeWhile isBlank = cs := List.rdropWhile_append_rtakeWhile
  conv_rhs => rw [isBlankText, ← whole, List.all_append, after, Bool.and_true]
  rfl

end Outside

end PromptCanvas.Text
