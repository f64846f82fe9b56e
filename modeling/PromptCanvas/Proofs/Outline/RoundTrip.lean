import PromptCanvas.Outline.Numbering
import PromptCanvas.Proofs.Text.Digits
import PromptCanvas.Proofs.Text.Lines
import PromptCanvas.Proofs.Text.Trim

/-! # Reading rendered lists

A rendered list of entries that fill a line each is read back with its levels
and its texts trimmed (`read_render`).  What is read from a text that is not
blank consists of such entries, trimmed already (`clean_read`), so that
rendering and reading it again changes nothing (`read_render_read`). -/

set_option autoImplicit false

namespace PromptCanvas

namespace Text

section Digits

theorem isDigit_of_ascii {c : Char} (digit : c.isDigit = true) : isDigit c = true := by
  have bounds := Numeral.toNat_of_isDigit digit
  have first : (0x30 ≤ c.toNat && c.toNat < 0x30 + 10) = true := by
    simp only [Bool.and_eq_true, decide_eq_true_iff]
    omega
  rw [isDigit, digitValue, digitZeros, List.find?_cons_of_pos (by exact first)]
  rfl

theorem not_isBlank_of_ascii {c : Char} (digit : c.isDigit = true) : isBlank c = false := by
  have bounds := Numeral.toNat_of_isDigit digit
  simp only [isBlank, isSpace, inRanges, spaceRanges, List.any_cons, List.any_nil, Bool.or_false,
    Bool.or_eq_false_iff, Bool.and_eq_false_iff, decide_eq_false_iff_not]
  omega

theorem not_isDigit_of_isBlank {c : Char} (blank : isBlank c = true) : isDigit c = false := by
  have apart : ∀ first ∈ digitZeros, ∀ range ∈ (0x1c, 0x1f) :: spaceRanges,
      range.2 < first ∨ first + 10 ≤ range.1 := by decide
  have within : inRanges ((0x1c, 0x1f) :: spaceRanges) c = true := by
    rw [isBlank, Bool.or_comm, inRanges, List.any_cons, List.any_nil, Bool.or_false] at blank
    exact blank
  obtain ⟨range, listed, inside⟩ := List.any_eq_true.mp within
  simp only [Bool.and_eq_true, decide_eq_true_eq] at inside
  have none : digitZeros.find? (fun first => first ≤ c.toNat && c.toNat < first + 10) = none := by
    rw [List.find?_eq_none]
    intro first member
    have gap := apart first member range listed
    simp only [Bool.and_eq_true, decide_eq_true_eq]
    omega
  rw [isDigit, digitValue, none]
  rfl

end Digits

end Text

/-- An entry that fills one line, with a text that is not blank. -/
structure Entry.Clean (e : Entry) : Prop where
  unbroken : '\n' ∉ e.text.toList
  solid : Text.trim e.text.toList ≠ []

def Entry.tidy (e : Entry) : Entry := { e with text := Text.trimmed e.text }

namespace Outline

open Text (SolidHead SolidLast)

section Tokens

theorem tokenText_cons (n : Nat) (ns : List Nat) (parts : ns ≠ []) :
    tokenText (n :: ns) = Nat.toDigits 10 n ++ '.' :: tokenText ns := by
  obtain ⟨m, rest, rfl⟩ := List.exists_cons_of_ne_nil parts
  simp [tokenText, List.intercalate_cons_cons]

theorem tokenText_single (n : Nat) : tokenText [n] = Nat.toDigits 10 n :=
  List.intercalate_singleton

theorem head_tokenText {token : List Nat} (parts : token ≠ []) :
    ∃ d more, tokenText token = d :: more ∧ d.isDigit = true := by
  obtain ⟨n, ns, rfl⟩ := List.exists_cons_of_ne_nil parts
  obtain ⟨d, ds, digits, digit, -⟩ := Numeral.toDigits_eq_cons (n := n)
  by_cases last : ns = []
  · rw [last, tokenText_single, digits]
    exact ⟨d, ds, rfl, digit⟩
  · rw [tokenText_cons n ns last, digits]
    exact ⟨d, _, rfl, digit⟩

theorem mem_tokenText {token : List Nat} {c : Char} (member : c ∈ tokenText token) :
    c.isDigit = true ∨ c = '.' := by
  have digit : ∀ n, c ∈ Nat.toDigits 10 n → c.isDigit = true := fun n inside =>
    List.all_eq_true.mp (Numeral.all_isDigit_toDigits n) c inside
  induction token with
  | nil => cases member
  | cons n ns ih =>
      by_cases last : ns = []
      · rw [last, tokenText_single] at member
        exact .inl (digit n member)
      · rw [tokenText_cons n ns last, List.mem_append, List.mem_cons] at member
        rcases member with inside | rfl | later
        · exact .inl (digit n inside)
        · exact .inr rfl
        · exact ih later

theorem count_toDigits (n : Nat) : (Nat.toDigits 10 n).count '.' = 0 := by
  rw [List.count_eq_zero]
  intro member
  have digit := List.all_eq_true.mp (Numeral.all_isDigit_toDigits n) '.' member
  cases digit

theorem depthOf_tokenText {token : List Nat} (parts : token ≠ []) :
    depthOf (tokenText token) = token.length := by
  induction token with
  | nil => exact absurd rfl parts
  | cons n ns ih =>
      by_cases last : ns = []
      · rw [last, tokenText_single, depthOf, count_toDigits]
        rfl
      · have rest := ih last
        rw [depthOf] at rest ⊢
        rw [tokenText_cons n ns last, List.count_append, count_toDigits, List.count_cons_self,
          List.length_cons]
        omega

end Tokens

section Numbers

theorem spanNumber_digits {ds : List Char} (digits : ds.all Char.isDigit = true)
    (nonempty : ds ≠ []) (inGroup : Bool) (rest : List Char) :
    spanNumber inGroup (ds ++ rest) =
      (ds ++ (spanNumber true rest).1, (spanNumber true rest).2) := by
  induction ds generalizing inGroup with
  | nil => exact absurd rfl nonempty
  | cons d ds ih =>
      rw [List.all_cons, Bool.and_eq_true] at digits
      rw [List.cons_append, spanNumber, if_pos (Text.isDigit_of_ascii digits.1)]
      by_cases last : ds = []
      · rw [last]
        rfl
      · rw [ih digits.2 last]
        rfl

theorem spanNumber_tokenText {token : List Nat} (parts : token ≠ []) (cs : List Char) :
    ∀ inGroup, spanNumber inGroup (tokenText token ++ ' ' :: cs) =
      (tokenText token, ' ' :: cs) := by
  have blank : spanNumber true (' ' :: cs) = ([], ' ' :: cs) := by
    rw [spanNumber, if_neg (by decide), if_neg (by simp)]
  induction token with
  | nil => exact absurd rfl parts
  | cons n ns ih =>
      intro inGroup
      by_cases last : ns = []
      · rw [last, tokenText_single, spanNumber_digits (Numeral.all_isDigit_toDigits n)
          Nat.toDigits_ne_nil, blank, List.append_nil]
      · obtain ⟨d, more, text, digit⟩ := head_tokenText last
        have point : spanNumber true ('.' :: (tokenText ns ++ ' ' :: cs)) =
            ('.' :: tokenText ns, ' ' :: cs) := by
          rw [spanNumber, if_neg (by decide), if_pos, ih last]
          simp [text, Text.isDigit_of_ascii digit]
        rw [tokenText_cons n ns last, List.append_assoc, List.cons_append,
          spanNumber_digits (Numeral.all_isDigit_toDigits n) Nat.toDigits_ne_nil, point]

theorem span_append_of_blank {gap text : List Char} (blank : ∀ c ∈ gap, Text.isBlank c = true)
    (solid : SolidHead text) : (gap ++ text).span Text.isBlank = (gap, text) := by
  rw [List.span_eq_takeWhile_dropWhile, List.takeWhile_append_of_pos blank,
    List.dropWhile_append_of_pos blank, Text.dropWhile_eq_self_of_solidHead solid]
  cases text with
  | nil => rw [List.takeWhile_nil, List.append_nil]
  | cons c rest => rw [List.takeWhile_cons_of_neg (by simp [solid c rfl]), List.append_nil]

theorem span_isBlank {text : List Char} (solid : SolidHead text) :
    (' ' :: text).span Text.isBlank = ([' '], text) :=
  span_append_of_blank (List.forall_mem_singleton.mpr (by decide)) solid

theorem numbered?_tokenText {token : List Nat} (parts : token ≠ []) {text : List Char}
    (solid : SolidHead text) (nonempty : text ≠ []) :
    numbered? ['.'] (tokenText token ++ ' ' :: text) = some (tokenText token, text) := by
  obtain ⟨d, more, number, -⟩ := head_tokenText parts
  obtain ⟨c, rest, rfl⟩ := List.exists_cons_of_ne_nil nonempty
  have blanks := span_isBlank solid
  rw [numbered?, spanNumber_tokenText parts, number]
  simp only [List.contains_cons, List.contains_nil, Bool.or_false, beq_iff_eq, Char.reduceEq,
    if_false, blanks]

end Numbers

section Lines

theorem length_token (c : Counters) (level : Level) :
    (c.token level).length = level.toNat := by
  cases level <;> rfl

theorem ofInt_toNat (level : Level) : Level.ofInt level.toNat = level := by
  cases level <;> rfl

def Numbered (n : List Nat × Entry) : Prop := n.1.length = n.2.level.toNat

theorem Numbered.parts {n : List Nat × Entry} (numbered : Numbered n) : n.1 ≠ [] := by
  intro none
  rw [Numbered, none] at numbered
  cases level : n.2.level <;> rw [level] at numbered <;> cases numbered

theorem numbered_numberFrom (es : List Entry) :
    ∀ c, ∀ n ∈ numberFrom c es, Numbered n := by
  induction es with
  | nil => intro c n member; cases member
  | cons e es ih =>
      intro c n member
      rcases List.mem_cons.mp member with rfl | later
      · exact length_token _ e.level
      · exact ih _ n later

theorem map_snd_numberFrom (es : List Entry) : ∀ c, (numberFrom c es).map Prod.snd = es := by
  induction es with
  | nil => intro c; rfl
  | cons e es ih => intro c; exact congrArg (e :: ·) (ih _)

theorem mem_of_mem_numberFrom {c : Counters} {es : List Entry} {n : List Nat × Entry}
    (member : n ∈ numberFrom c es) : n.2 ∈ es := by
  rw [← map_snd_numberFrom es c]
  exact List.mem_map_of_mem member

theorem numberFrom_ne_nil (c : Counters) {es : List Entry} (nonempty : es ≠ []) :
    numberFrom c es ≠ [] := by
  obtain ⟨e, rest, rfl⟩ := List.exists_cons_of_ne_nil nonempty
  exact List.cons_ne_nil _ _

variable {n : List Nat × Entry}

theorem entryOfLine_lineText (numbered : Numbered n) (clean : n.2.Clean) :
    entryOfLine (lineText n) = n.2.tidy := by
  rw [entryOfLine, lineText,
    numbered?_tokenText numbered.parts (Text.solidHead_trim _) clean.solid]
  simp only [depthOf_tokenText numbered.parts]
  rw [show n.1.length = n.2.level.toNat from numbered, ofInt_toNat]
  rfl

theorem trim_lineText (numbered : Numbered n) (clean : n.2.Clean) :
    Text.trim (lineText n) = lineText n := by
  obtain ⟨d, more, text, digit⟩ := head_tokenText numbered.parts
  refine (Text.trim_eq_self_iff _).mpr ⟨?_, ?_⟩
  · rw [lineText, text]
    rintro c ⟨⟩
    exact Text.not_isBlank_of_ascii digit
  · rw [lineText, ← List.singleton_append, ← List.append_assoc]
    exact Text.solidLast_append (Text.solidLast_trim _) clean.solid _

theorem trim_subset (cs : List Char) : Text.trim cs ⊆ cs := fun _ member =>
  (List.dropWhile_suffix _).subset ((Text.trimEnd_initial _).subset member)

theorem unbroken_lineText (clean : n.2.Clean) : '\n' ∉ lineText n := by
  rw [lineText, List.mem_append, List.mem_cons]
  rintro (number | blank | text)
  · rcases mem_tokenText number with digit | point
    · cases digit
    · cases point
  · cases blank
  · exact clean.unbroken (trim_subset _ text)

theorem lineText_ne_nil (n : List Nat × Entry) : lineText n ≠ [] := by
  simp [lineText]

end Lines

section Reading

theorem isBlankString_of_clean {e : Entry} (clean : e.Clean) :
    Text.isBlankString e.text = false := by
  rw [← Bool.not_eq_true, Text.isBlankString, Text.isBlankText_iff]
  exact clean.solid

theorem shownLines_of_clean {es : List Entry} (clean : ∀ e ∈ es, e.Clean) :
    shownLines es = (numberFrom .start es).map lineText := by
  rw [shownLines, List.filter_eq_self.mpr]
  intro n member
  rw [isBlankString_of_clean (clean n.2 (mem_of_mem_numberFrom member))]
  rfl

theorem trimmedLines_joined {ns : List (List Nat × Entry)} (some : ns ≠ [])
    (numbered : ∀ n ∈ ns, Numbered n) (clean : ∀ n ∈ ns, n.2.Clean) :
    trimmedLines (List.intercalate ['\n'] (ns.map lineText)) = ns.map lineText := by
  have nonempty : ns.map lineText ≠ [] := by
    rwa [ne_eq, List.map_eq_nil_iff]
  rw [trimmedLines, Text.lines_intercalate nonempty, List.map_map, List.filter_eq_self.mpr]
  · exact List.map_congr_left fun n member => trim_lineText (numbered n member) (clean n member)
  · intro l member
    obtain ⟨n, place, rfl⟩ := List.mem_map.mp member
    rw [Function.comp_apply, trim_lineText (numbered n place) (clean n place)]
    simpa using lineText_ne_nil n
  · intro l member
    obtain ⟨n, place, rfl⟩ := List.mem_map.mp member
    exact unbroken_lineText (clean n place)

theorem read_eq (text : String) (some : trimmedLines text.toList ≠ []) :
    read text = (trimmedLines text.toList).map entryOfLine := by
  rw [read]
  split
  · rename_i none
    exact absurd (List.map_eq_nil_iff.mp none) some
  · rfl

/-- Numbered lines are read back without their numbers, whatever these are. -/
theorem read_joined {ns : List (List Nat × Entry)} (some : ns ≠ [])
    (numbered : ∀ n ∈ ns, Numbered n) (clean : ∀ n ∈ ns, n.2.Clean) :
    read (String.ofList (List.intercalate ['\n'] (ns.map lineText))) =
      ns.map fun n => n.2.tidy := by
  have lines := trimmedLines_joined some numbered clean
  rw [read_eq, String.toList_ofList, lines, List.map_map]
  · exact List.map_congr_left fun n member =>
      entryOfLine_lineText (numbered n member) (clean n member)
  · rwa [String.toList_ofList, lines, ne_eq, List.map_eq_nil_iff]

theorem read_render {es : List Entry} (nonempty : es ≠ []) (clean : ∀ e ∈ es, e.Clean) :
    read (render es) = es.map Entry.tidy := by
  have back := congrArg (List.map Entry.tidy) (map_snd_numberFrom es .start)
  rw [render, shownLines_of_clean clean, read_joined (numberFrom_ne_nil .start nonempty)
    (numbered_numberFrom es .start) fun n member => clean n.2 (mem_of_mem_numberFrom member),
    ← back, List.map_map]
  rfl

theorem solid_render {es : List Entry} (nonempty : es ≠ []) (clean : ∀ e ∈ es, e.Clean) :
    Text.trimmed (render es) ≠ "" := by
  obtain ⟨n, rest, numbers⟩ := List.exists_cons_of_ne_nil (numberFrom_ne_nil .start nonempty)
  have first : n ∈ numberFrom .start es := numbers ▸ List.mem_cons_self
  obtain ⟨d, more, text, digit⟩ := head_tokenText (numbered_numberFrom es .start n first).parts
  have member : d ∈ (render es).toList := by
    rw [render, String.toList_ofList, shownLines_of_clean clean, numbers, List.map_cons, lineText,
      text]
    cases rest <;> simp [List.intercalate_cons_cons]
  rw [ne_eq, ← Text.isBlankString_iff, Bool.not_eq_true, ← Bool.not_eq_true]
  intro blank
  have isBlank := List.all_eq_true.mp blank d member
  rw [Text.not_isBlank_of_ascii digit] at isBlank
  cases isBlank

end Reading

section Lists

theorem mem_trimmedLines {cs line : List Char} (member : line ∈ trimmedLines cs) :
    '\n' ∉ line ∧ Text.trim line = line ∧ line ≠ [] := by
  obtain ⟨cut, nonempty⟩ := List.mem_filter.mp member
  obtain ⟨l, listed, rfl⟩ := List.mem_map.mp cut
  refine ⟨fun inside => ?_, Text.trim_trim l, by simpa using nonempty⟩
  exact Text.not_mem_of_mem_splitOn cs l listed (trim_subset l inside)

theorem subset_of_mem_trimmedLines {cs line : List Char} (member : line ∈ trimmedLines cs) :
    line ⊆ cs := by
  obtain ⟨l, listed, rfl⟩ := List.mem_map.mp (List.mem_filter.mp member).1
  exact List.Subset.trans (trim_subset l) (Text.subset_of_mem_splitOn cs l listed)

theorem trimmedLines_ne_nil {text : String} (solid : Text.trimmed text ≠ "") :
    trimmedLines text.toList ≠ [] := by
  have notBlank : ¬ ∀ c ∈ text.toList, Text.isBlank c = true := by
    intro blank
    exact solid ((Text.isBlankString_iff text).mp (List.all_eq_true.mpr blank))
  push Not at notBlank
  obtain ⟨c, member, visible⟩ := notBlank
  have other : c ≠ '\n' := by
    rintro rfl
    exact visible rfl
  obtain ⟨l, listed, inside⟩ := Text.exists_mem_splitOn text.toList member other
  have some : Text.trim l ≠ [] := by
    rw [ne_eq, ← Text.isBlankText_iff]
    exact fun blank => visible (List.all_eq_true.mp blank c inside)
  exact List.ne_nil_of_mem (List.mem_filter.mpr ⟨List.mem_map_of_mem listed, by simpa using some⟩)

theorem spanNumber_append (cs : List Char) :
    ∀ inGroup, (spanNumber inGroup cs).1 ++ (spanNumber inGroup cs).2 = cs := by
  induction cs with
  | nil => intro inGroup; rfl
  | cons c cs ih =>
      intro inGroup
      rw [spanNumber]
      split_ifs
      · exact congrArg (c :: ·) (ih true)
      · exact congrArg (c :: ·) (ih false)
      · rfl

/-- The text after a number ends the line and does not begin with a blank. -/
theorem numbered?_eq_some {closing line number text : List Char}
    (found : numbered? closing line = some (number, text)) :
    text <:+ line ∧ SolidHead text ∧ text ≠ [] := by
  have whole := spanNumber_append line false
  unfold numbered? at found
  split at found
  · cases found
  · rename_i given rest _ cut
    rw [cut] at whole
    cases rest with
    | nil => cases found
    | cons c more =>
        dsimp only at found
        have marked : (if closing.contains c then more else c :: more) <:+ c :: more := by
          split
          · exact List.suffix_cons _ _
          · exact List.suffix_refl _
        split at found
        · cases found
        · cases found
        · rename_i blanks after _ nonempty parts
          rw [List.span_eq_takeWhile_dropWhile, Prod.mk.injEq] at parts
          obtain ⟨-, rfl⟩ := Prod.mk.inj (Option.some.inj found)
          have tail : after <:+ c :: more := by
            rw [← parts.2]
            exact (List.dropWhile_suffix _).trans marked
          exact ⟨tail.trans ⟨given, whole⟩, parts.2 ▸ Text.solidHead_dropWhile _, nonempty⟩

theorem clean_entryOfLine {line : List Char} (unbroken : '\n' ∉ line)
    (trimmed : Text.trim line = line) (nonempty : line ≠ []) :
    (entryOfLine line).Clean ∧ (entryOfLine line).tidy = entryOfLine line := by
  have whole : ∀ text : List Char, '\n' ∉ text → Text.trim text = text → text ≠ [] →
      ∀ level, (Entry.mk (String.ofList text) level).Clean ∧
        (Entry.mk (String.ofList text) level).tidy = Entry.mk (String.ofList text) level := by
    intro text unbroken trimmed nonempty level
    refine ⟨⟨by simpa using unbroken, by simpa [trimmed] using nonempty⟩, ?_⟩
    rw [Entry.tidy, Text.trimmed, String.toList_ofList, trimmed]
  unfold entryOfLine
  split
  · rename_i number text found
    obtain ⟨suffix, head, some⟩ := numbered?_eq_some found
    refine whole text (fun inside => unbroken (suffix.subset inside)) ?_ some _
    refine (Text.trim_eq_self_iff text).mpr ⟨head, ?_⟩
    obtain ⟨front, rfl⟩ := suffix
    have last := ((Text.trim_eq_self_iff _).mp trimmed).2
    rwa [SolidLast, List.getLast?_append_of_ne_nil _ some] at last
  · exact whole line unbroken trimmed nonempty .one

theorem clean_read {text : String} (solid : Text.trimmed text ≠ "") :
    ∀ e ∈ read text, e.Clean ∧ e.tidy = e := by
  rw [read_eq text (trimmedLines_ne_nil solid), List.forall_mem_map]
  intro line member
  obtain ⟨unbroken, trimmed, nonempty⟩ := mem_trimmedLines member
  exact clean_entryOfLine unbroken trimmed nonempty

theorem read_ne_nil (text : String) : read text ≠ [] := by
  rw [read]
  split
  · exact List.cons_ne_nil _ _
  · assumption

theorem read_render_read {text : String} (solid : Text.trimmed text ≠ "") :
    read (render (read text)) = read text := by
  have clean := clean_read solid
  rw [read_render (read_ne_nil text) fun e member => (clean e member).1]
  exact (List.map_congr_left fun e member => (clean e member).2).trans (List.map_id' _)

theorem solid_render_read {text : String} (solid : Text.trimmed text ≠ "") :
    Text.trimmed (render (read text)) ≠ "" :=
  solid_render (read_ne_nil text) fun e member => (clean_read solid e member).1

end Lists

end Outline

end PromptCanvas
