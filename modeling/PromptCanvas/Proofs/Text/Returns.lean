import Mathlib.Data.List.TakeDrop
import PromptCanvas.Proofs.Text.Searching
import PromptCanvas.Proofs.Text.Words

/-! # Carriage returns before newlines

`withReturns` puts a carriage return before every newline.  A return is a blank, so what is blank
stays so, and trimming a text comes to the same before and after (`trim_withReturns`); and it is in
no word and no fence, so both are found where they were (`word?_withReturns`,
`cut?_withReturns`). -/

set_option autoImplicit false

namespace PromptCanvas.Text

/-- The text with a carriage return before every newline. -/
def withReturns (cs : List Char) : List Char :=
  cs.flatMap fun c => if c = '\n' then ['\r', '\n'] else [c]

section Writing

variable {c : Char} {cs : List Char}

theorem withReturns_newline (cs : List Char) :
    withReturns ('\n' :: cs) = '\r' :: '\n' :: withReturns cs := rfl

theorem withReturns_cons (other : c ≠ '\n') (cs : List Char) :
    withReturns (c :: cs) = c :: withReturns cs := by
  rw [withReturns, List.flatMap_cons, if_neg other]
  rfl

theorem withReturns_append (front back : List Char) :
    withReturns (front ++ back) = withReturns front ++ withReturns back := List.flatMap_append

theorem withReturns_of_unbroken (unbroken : '\n' ∉ cs) : withReturns cs = cs := by
  induction cs with
  | nil => rfl
  | cons c cs ih =>
      obtain ⟨other, rest⟩ := not_or.mp (List.mem_cons.not.mp unbroken)
      rw [withReturns_cons (Ne.symm other), ih rest]

theorem mem_withReturns (other : c ≠ '\r') : c ∈ withReturns cs ↔ c ∈ cs := by
  induction cs with
  | nil => exact Iff.rfl
  | cons d cs ih =>
      by_cases newline : d = '\n'
      · rw [newline, withReturns_newline, List.mem_cons, List.mem_cons, List.mem_cons, ih]
        simp [other]
      · rw [withReturns_cons newline, List.mem_cons, List.mem_cons, ih]

theorem isEmpty_withReturns (cs : List Char) : (withReturns cs).isEmpty = cs.isEmpty := by
  cases cs with
  | nil => rfl
  | cons c cs =>
      by_cases newline : c = '\n'
      · rw [newline]
        rfl
      · rw [withReturns_cons newline]
        rfl

theorem head?_withReturns_ne (noReturn : c ≠ '\r')
    (other : ∀ d ∈ cs.head?, d ≠ c) : ∀ d ∈ (withReturns cs).head?, d ≠ c := by
  cases cs with
  | nil => exact other
  | cons d cs =>
      by_cases newline : d = '\n'
      · rw [newline, withReturns_newline]
        rintro e ⟨⟩
        exact Ne.symm noReturn
      · rw [withReturns_cons newline]
        exact other

theorem head?_withReturns_iff (noNewline : c ≠ '\n') (noReturn : c ≠ '\r') :
    (withReturns cs).head? = some c ↔ cs.head? = some c := by
  constructor
  · intro head
    by_contra other
    exact head?_withReturns_ne noReturn (fun d own same => other (same ▸ own)) c head rfl
  · intro head
    obtain ⟨rest, rfl⟩ := List.head?_eq_some_iff.mp head
    rw [withReturns_cons noNewline]
    rfl

end Writing

section Spans

variable {p : Char → Bool}

/-- Where a newline and a return are alike, the same part of the text is cut off. -/
theorem takeWhile_withReturns (alike : p '\r' = p '\n') (cs : List Char) :
    (withReturns cs).takeWhile p = withReturns (cs.takeWhile p) := by
  induction cs with
  | nil => rfl
  | cons c cs ih =>
      by_cases newline : c = '\n'
      · cases holds : p '\n' with
        | true =>
            rw [newline, withReturns_newline, List.takeWhile_cons_of_pos (alike.trans holds),
              List.takeWhile_cons_of_pos holds, List.takeWhile_cons_of_pos holds, ih,
              withReturns_newline]
        | false =>
            rw [newline, withReturns_newline, List.takeWhile_cons_of_neg (by simp [alike, holds]),
              List.takeWhile_cons_of_neg (by simp [holds])]
            rfl
      · rw [withReturns_cons newline]
        cases holds : p c with
        | true =>
            rw [List.takeWhile_cons_of_pos holds, List.takeWhile_cons_of_pos holds, ih,
              withReturns_cons newline]
        | false =>
            rw [List.takeWhile_cons_of_neg (by simp [holds]),
              List.takeWhile_cons_of_neg (by simp [holds])]
            rfl

theorem dropWhile_withReturns (alike : p '\r' = p '\n') (cs : List Char) :
    (withReturns cs).dropWhile p = withReturns (cs.dropWhile p) := by
  have whole : withReturns cs =
      withReturns (cs.takeWhile p) ++ withReturns (cs.dropWhile p) := by
    rw [← withReturns_append, List.takeWhile_append_dropWhile]
  have parts := List.takeWhile_append_dropWhile (p := p) (l := withReturns cs)
  rw [takeWhile_withReturns alike] at parts
  exact List.append_cancel_left (parts.trans whole)

theorem span_withReturns (alike : p '\r' = p '\n') (cs : List Char) :
    (withReturns cs).span p = (withReturns (cs.span p).1, withReturns (cs.span p).2) := by
  rw [List.span_eq_takeWhile_dropWhile, List.span_eq_takeWhile_dropWhile,
    takeWhile_withReturns alike, dropWhile_withReturns alike]

end Spans

section Trimming

variable {cs : List Char}

theorem isBlank_withReturns (blank : ∀ c ∈ cs, isBlank c = true) :
    ∀ c ∈ withReturns cs, isBlank c = true := by
  intro c member
  by_cases newline : c = '\r'
  · rw [newline]
    decide
  · exact blank c ((mem_withReturns newline).mp member)

theorem trimStart_withReturns (cs : List Char) :
    trimStart (withReturns cs) = withReturns (trimStart cs) :=
  dropWhile_withReturns (by decide) cs

theorem solidHead_withReturns (solid : SolidHead cs) : SolidHead (withReturns cs) := by
  rw [SolidHead, ← dropWhile_eq_self_of_solidHead solid, ← dropWhile_withReturns (by decide)]
  exact solidHead_dropWhile _

theorem solidLast_withReturns (solid : SolidLast cs) : SolidLast (withReturns cs) := by
  induction cs using List.reverseRecOn with
  | nil => exact solid
  | append_singleton cs c _ =>
      have visible : isBlank c = false := solid c (by simp)
      have other : c ≠ '\n' := by
        rintro rfl
        cases visible
      rw [withReturns_append, withReturns_cons other]
      exact solidLast_append (by rintro d ⟨⟩; exact visible) (List.cons_ne_nil _ _) _

theorem trim_withReturns (cs : List Char) : trim (withReturns cs) = withReturns (trim cs) := by
  obtain ⟨before, after, blankBefore, blankAfter, whole⟩ := exists_trim cs
  have written : withReturns cs =
      withReturns before ++ (withReturns (trim cs) ++ withReturns after) := by
    rw [← withReturns_append, ← withReturns_append, ← whole]
  have own : trim (withReturns (trim cs)) = withReturns (trim cs) :=
    (trim_eq_self_iff _).mpr
      ⟨solidHead_withReturns (solidHead_trim cs), solidLast_withReturns (solidLast_trim cs)⟩
  rw [written, trim_append_of_blank (isBlank_withReturns blankBefore),
    trim_append_of_blank_end (isBlank_withReturns blankAfter), own]

end Trimming

section Words

theorem word?_withReturns {word : List Char} (noNewline : '\n' ∉ word) (noReturn : '\r' ∉ word) :
    ∀ cs, word? word (withReturns cs) =
      (word? word cs).map fun found => (found.1, withReturns found.2) := by
  induction word with
  | nil => exact fun _ => rfl
  | cons w word ih =>
      obtain ⟨newline, newlines⟩ := not_or.mp (List.mem_cons.not.mp noNewline)
      obtain ⟨returned, returns⟩ := not_or.mp (List.mem_cons.not.mp noReturn)
      intro cs
      cases cs with
      | nil => rfl
      | cons c cs =>
          by_cases broken : c = '\n'
          · have first : fold '\r' ≠ w := returned
            have second : fold '\n' ≠ w := newline
            rw [broken, withReturns_newline, word?, if_neg first, word?, if_neg second]
            rfl
          · rw [withReturns_cons broken, word?, word?]
            split
            · rw [ih newlines returns]
              cases word? word cs <;> rfl
            · rfl

theorem oneOf?_withReturns {words : List (List Char)}
    (plain : ∀ word ∈ words, '\n' ∉ word ∧ '\r' ∉ word) (cs : List Char) :
    oneOf? words (withReturns cs) =
      (oneOf? words cs).map fun found => (found.1, withReturns found.2) := by
  induction words with
  | nil => rfl
  | cons word words ih =>
      obtain ⟨⟨noNewline, noReturn⟩, others⟩ := List.forall_mem_cons.mp plain
      have later := ih others
      rw [oneOf?] at later ⊢
      rw [List.findSome?_cons, word?_withReturns noNewline noReturn, later, oneOf?, oneOf?,
        List.findSome?_cons]
      cases word? word cs <;> rfl

end Words

section Searching

variable {front back pattern cs : List Char}

theorem exists_of_withReturns (unreturned : '\r' ∉ front)
    (written : withReturns cs = front ++ back) :
    ∃ rest, cs = front ++ rest ∧ back = withReturns rest := by
  induction front generalizing cs with
  | nil => exact ⟨cs, rfl, written.symm⟩
  | cons c front ih =>
      obtain ⟨noReturn, others⟩ := not_or.mp (List.mem_cons.not.mp unreturned)
      cases cs with
      | nil => cases written
      | cons d cs =>
          by_cases newline : d = '\n'
          · rw [newline, withReturns_newline] at written
            exact absurd (List.cons.inj written).1 noReturn
          · rw [withReturns_cons newline] at written
            obtain ⟨rfl, behind⟩ := List.cons.inj written
            obtain ⟨rest, rfl, same⟩ := ih others behind
            exact ⟨rest, rfl, same⟩

theorem exists_cons_of_withReturns {c : Char} (noReturn : c ≠ '\r')
    (written : withReturns cs = c :: back) : ∃ rest, cs = c :: rest ∧ back = withReturns rest :=
  have unreturned : '\r' ∉ [c] := by simpa using noReturn.symm
  exists_of_withReturns unreturned written

theorem exists_of_withReturns_append (unbroken : '\n' ∉ back)
    (written : withReturns cs = front ++ back) :
    ∃ own, cs = own ++ back ∧ front = withReturns own := by
  induction back using List.reverseRecOn generalizing cs with
  | nil => exact ⟨cs, (List.append_nil cs).symm, by rw [written, List.append_nil]⟩
  | append_singleton back b ih =>
      rw [List.mem_append, List.mem_singleton, not_or] at unbroken
      rw [← List.append_assoc] at written
      rcases List.eq_nil_or_concat' cs with rfl | ⟨cs, c, rfl⟩
      · cases front <;> cases back <;> cases written
      · rw [withReturns_append] at written
        by_cases newline : c = '\n'
        · have last := congrArg List.getLast? written
          rw [newline, List.getLast?_append, List.getLast?_concat] at last
          exact absurd (Option.some.inj last) unbroken.2
        · rw [withReturns_cons newline] at written
          obtain ⟨rest, same⟩ := List.append_inj' written rfl
          obtain ⟨own, rfl, text⟩ := ih unbroken.1 rest
          cases same
          exact ⟨own, by rw [List.append_assoc], text⟩

theorem isPrefixOf?_withReturns (noNewline : '\n' ∉ pattern) (noReturn : '\r' ∉ pattern)
    (cs : List Char) :
    pattern.isPrefixOf? (withReturns cs) = (pattern.isPrefixOf? cs).map withReturns := by
  cases found : pattern.isPrefixOf? cs with
  | some rest =>
      rw [← List.isPrefixOf?_eq_some_iff_append_eq.mp found, withReturns_append,
        withReturns_of_unbroken noNewline]
      exact List.isPrefixOf?_eq_some_iff_append_eq.mpr rfl
  | none =>
      refine isPrefixOf?_eq_none fun ⟨back, begins⟩ => ?_
      obtain ⟨rest, rfl, -⟩ := exists_of_withReturns noReturn begins.symm
      rw [List.isPrefixOf?_eq_some_iff_append_eq.mpr rfl] at found
      cases found

theorem cut?_withReturns (noNewline : '\n' ∉ pattern) (noReturn : '\r' ∉ pattern) (cs : List Char) :
    cut? pattern (withReturns cs) =
      (cut? pattern cs).map fun found => (withReturns found.1, withReturns found.2) := by
  induction cs with
  | nil => cases pattern <;> rfl
  | cons c cs ih =>
      by_cases begins : pattern <+: c :: cs
      · obtain ⟨rest, whole⟩ := begins
        rw [← whole, withReturns_append, withReturns_of_unbroken noNewline, cut?_self, cut?_self]
        rfl
      · have other : ∀ d, d ∉ pattern → ∀ more, ¬ pattern <+: d :: more := by
          rintro d foreign more ⟨back, text⟩
          cases pattern with
          | nil => exact begins (List.nil_prefix)
          | cons p pattern => exact foreign ((List.cons.inj text).1 ▸ List.mem_cons_self)
        rw [cut?_cons_of_not begins]
        by_cases newline : c = '\n'
        · rw [newline, withReturns_newline, cut?_cons_of_not (other _ noReturn _),
            cut?_cons_of_not (other _ noNewline _), ih]
          cases cut? pattern cs <;> rfl
        · have absent : ¬ pattern <+: c :: withReturns cs := by
            rintro ⟨back, text⟩
            rw [← withReturns_cons newline] at text
            obtain ⟨rest, whole, -⟩ := exists_of_withReturns noReturn text.symm
            exact begins ⟨rest, whole.symm⟩
          rw [withReturns_cons newline, cut?_cons_of_not absent, ih]
          cases cut? pattern cs with
          | none => rfl
          | some found => simp [withReturns_cons newline]

end Searching

end PromptCanvas.Text
