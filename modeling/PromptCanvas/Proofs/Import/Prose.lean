import PromptCanvas.Proofs.Import.Fencing
import PromptCanvas.Proofs.Import.LongIntegers
import PromptCanvas.Proofs.Import.Thoughts

/-! # Documents in prose

Prose holds no mark that opens or closes a fence, a string, an array or an object.  A document in
braces with prose around it is the document that is extracted, whatever stands in it but the mark
of a fenced document (`extract_bare`).  A document in a fence with prose around it is extracted if
it holds no mark of a fence itself: such a mark in one of its strings closes the fence, and then
nothing is extracted (`extract_inFence`). -/

set_option autoImplicit false

namespace PromptCanvas

namespace Document

open Json (Spells)
open Text (SolidLast)

section Prose

variable {cs front back : List Char}

/-- A text without backticks, double quotes, brackets and braces. -/
def IsProse (cs : List Char) : Prop := ∀ c ∈ cs, c ∉ ['\x60', '"', '[', ']', '\x7b', '\x7d']

instance (cs : List Char) : Decidable (IsProse cs) :=
  List.decidableBAll (fun c => c ∉ ['\x60', '"', '[', ']', '\x7b', '\x7d']) cs

theorem IsProse.of_subset (prose : IsProse cs) (part : front ⊆ cs) : IsProse front :=
  fun c member => prose c (part member)

theorem IsProse.notMem (prose : IsProse cs) {m : Char}
    (mark : m ∈ ['\x60', '"', '[', ']', '\x7b', '\x7d']) : m ∉ cs :=
  fun member => prose m member mark

theorem IsProse.not_isMark (prose : IsProse cs) : ∀ c ∈ cs, isMark c = false := by
  intro c member
  have other := prose c member
  rw [← Bool.not_eq_true, isMark_iff]
  rintro (rfl | rfl | rfl | rfl) <;> simp at other

theorem IsProse.notMem_escapeSeparators (prose : IsProse cs) (part : front ⊆ cs) {m : Char}
    (mark : m ∈ ['\x60', '"', '[', ']', '\x7b', '\x7d']) : m ∉ escapeSeparators front := by
  intro member
  have apart : ∀ c ∈ ['\x60', '"', '[', ']', '\x7b', '\x7d'],
      c ∉ ['\\', 'u', '2', '0', '8', '9'] := by simp
  exact prose.notMem mark (part (mem_of_mem_escapeSeparators member (apart m mark)))

theorem IsProse.notMem_opening (prose : IsProse cs) {m : Char}
    (mark : m ∈ ['\x60', '"', '[', ']', '\x7b', '\x7d']) : m ∉ opening cs :=
  prose.notMem_escapeSeparators (List.Subset.trans (List.dropWhile_suffix _).subset
    (List.dropWhile_suffix _).subset) mark

theorem IsProse.notMem_bare (prose : IsProse cs) {m : Char}
    (mark : m ∈ ['\x60', '"', '[', ']', '\x7b', '\x7d']) : m ∉ bare cs :=
  prose.notMem_escapeSeparators (List.Subset.trans (List.dropWhile_suffix _).subset
    (infix_withoutFence cs).subset) mark

variable {n : Json.Overlong}

/-- Prose holds the reader up exactly if it leads with an integer that is too long. -/
theorem IsProse.outcome_parse_iff (prose : IsProse cs) :
    outcome (parse cs) = .error n ↔ Json.LeadsLong n (Text.trimStart (opening cs)) := by
  rw [outcome_parse_error_iff, leads_bare (prose.notMem (by simp))]
  intro c head
  have member := Outline.trim_subset _ (List.mem_of_mem_head? head)
  refine ⟨?_, ?_⟩
  all_goals
    rintro rfl
    exact prose.notMem_bare (by simp) member

theorem IsProse.outcome_parse_append_iff (prose : IsProse front) {c : Char}
    (mark : c = '\x60' ∨ c = '\x7b' ∧ Text.isBlankText (opening front) = false)
    (whole : withoutFence (front ++ c :: back) = Text.trim (front ++ c :: back)) :
    outcome (parse (front ++ c :: back)) = .error n ↔ outcome (parse front) = .error n := by
  have breaks : Json.BreaksNumbers c := by
    rcases mark with rfl | ⟨rfl, -⟩ <;> decide
  have solid : Text.isBlank c = false := by
    rcases mark with rfl | ⟨rfl, -⟩ <;> decide
  have small : c.toNat < 0x80 := by
    rcases mark with rfl | ⟨rfl, -⟩ <;> decide
  obtain ⟨others, candidate⟩ := exists_bare_append whole small solid
  rw [prose.outcome_parse_iff, outcome_parse_error_iff, candidate,
    leads_trimStart_append breaks solid]
  rw [candidate]
  intro d head
  rw [Text.head?_trim, List.find?_append] at head
  cases found : (opening front).find? (fun c => !Text.isBlank c) with
  | some e =>
      rw [found] at head
      obtain rfl := Option.some.inj head
      have member := List.mem_of_find?_eq_some found
      exact ⟨fun same => prose.notMem_opening (by simp) (same ▸ member),
        fun same => prose.notMem_opening (by simp) (same ▸ member)⟩
  | none =>
      rcases mark with rfl | ⟨rfl, visible⟩
      · rw [found] at head
        cases head
        decide
      · refine absurd (List.all_eq_true.mpr fun c member => ?_) (Bool.eq_false_iff.mp visible)
        simpa using List.find?_eq_none.mp found c member

end Prose

section Fences

variable {cs front back : List Char}

/-- The text holds the mark of a fence and behind it the tag of JSON documents, in any case. -/
def Marked (cs : List Char) : Prop :=
  ∃ word, word.map Text.fold = jsonWord ∧ fence ++ word <:+: cs

theorem innerFence?_of_unmarked (unmarked : ¬ Marked cs) : innerFence? cs = none := by
  induction cs with
  | nil => rfl
  | cons c cs ih =>
      have later : ¬ Marked cs := fun ⟨word, folds, inside⟩ =>
        unmarked ⟨word, folds, List.infix_cons inside⟩
      rw [innerFence?]
      split
      · next word rest found =>
          obtain ⟨behind, opened, tagged⟩ := Option.bind_eq_some_iff.mp found
          obtain ⟨rfl, folds⟩ := Text.word?_eq_some tagged
          have text := List.isPrefixOf?_eq_some_iff_append_eq.mp opened
          refine absurd ⟨word, folds, List.IsPrefix.isInfix ⟨rest, ?_⟩⟩ unmarked
          rw [List.append_assoc, text]
      · exact ih later

theorem innerFence?_append (plain : '\x60' ∉ front) (cs : List Char) :
    innerFence? (front ++ cs) = innerFence? cs := by
  induction front with
  | nil => rfl
  | cons c front ih =>
      obtain ⟨other, rest⟩ := not_or.mp (List.mem_cons.not.mp plain)
      have none : fence.isPrefixOf? (c :: (front ++ cs)) = none := by
        simp [fence, List.isPrefixOf?, other]
      rw [List.cons_append, innerFence?, none]
      exact ih rest

theorem innerFence?_fence (cs : List Char) : innerFence? (fence ++ (jsonWord ++ cs)) =
    (Text.cut? fence cs).map fun found => Text.trim found.1 := by
  have tagged : (fence.isPrefixOf? (fence ++ (jsonWord ++ cs))).bind
      (fun rest => Text.word? jsonWord rest) = some (jsonWord, cs) := by
    rw [isPrefixOf?_fence]
    exact Text.word?_append (by decide) cs
  have opened : fence ++ (jsonWord ++ cs) = '\x60' :: '\x60' :: '\x60' :: (jsonWord ++ cs) := rfl
  rw [opened] at tagged ⊢
  rw [innerFence?, tagged]

theorem IsProse.unmarked (prose : IsProse cs) : ¬ Marked cs := by
  rintro ⟨word, -, inside⟩
  exact prose.notMem (by simp) (inside.subset (List.mem_append_left _ List.mem_cons_self))

theorem Marked.of_append {c : Char} (other : Text.fold c ∉ jsonWord) (noFence : c ≠ '\x60')
    (marked : Marked (front ++ c :: back)) : Marked front ∨ Marked back := by
  obtain ⟨word, folds, inside⟩ := marked
  have foreign : c ∉ fence ++ word := by
    intro member
    rcases List.mem_append.mp member with mark | letter
    · exact noFence (List.eq_of_mem_replicate mark)
    · exact other (folds ▸ List.mem_map_of_mem letter)
  rcases Text.infix_of_infix_append foreign inside with first | second
  · exact .inl ⟨word, folds, first⟩
  · exact .inr ⟨word, folds, second⟩

end Fences

section Extraction

variable {cs back : List Char} {v : Json}

theorem withoutFence_of_cons {c : Char} (trimmed : Text.trim cs = c :: back) (other : c ≠ '\x60') :
    withoutFence cs = Text.trim cs := by
  refine withoutFence_of_head ?_
  rw [trimmed]
  rintro d ⟨⟩
  exact other

theorem mem_of_braceSpan? {inner : List Char} (found : braceSpan? cs = some inner) :
    '\x7b' ∈ cs := by
  unfold braceSpan? at found
  split at found
  · cases found
  · next c rest start =>
      have brace := List.head?_dropWhile_not (· != '\x7b') cs
      have member : c ∈ cs := (List.dropWhile_suffix _).subset (start ▸ List.mem_cons_self)
      rw [start] at brace
      simp at brace
      rwa [brace] at member

theorem mem_of_extract (found : extract false cs = .ok (some v)) (object : v.isObject = true) :
    '\x7b' ∈ cs := by
  rw [extract_false] at found
  refine (Text.trim_infix cs).subset ?_
  rcases List.mem_cons.mp (mem_of_firstFound found (by simp)) with whole | part
  · exact mem_of_parse (outcome_eq_some_iff.mp whole.symm) object
  · obtain ⟨inner, piece, value⟩ := List.mem_map.mp part
    have inside := mem_of_parse (outcome_eq_some_iff.mp value) object
    rcases Option.or_eq_some_iff.mp (Option.mem_toList.mp piece) with fenced | ⟨-, braces⟩
    · exact (infix_of_innerFence? fenced).subset inside
    · exact mem_of_braceSpan? braces

end Extraction

section Bare

variable {before document after : List Char} {v w : Json}
  (starts : document.head? = some '\x7b') (closing : document.getLast? = some '\x7d')
  (proseBefore : IsProse before) (proseAfter : IsProse after)

include starts closing

theorem exists_braces : ∃ inner, document = '\x7b' :: (inner ++ ['\x7d']) := by
  obtain ⟨rest, rfl⟩ := List.head?_eq_some_iff.mp starts
  rcases List.eq_nil_or_concat rest with rfl | ⟨inner, c, rfl⟩
  · cases closing
  · rw [List.concat_eq_append] at closing ⊢
    rw [← List.cons_append, List.getLast?_concat] at closing
    exact ⟨inner, by rw [Option.some.inj closing]⟩

theorem edged_braces : Text.Edged document where
  nonempty := by
    rintro rfl
    cases starts
  head := by
    rw [starts]
    rintro c ⟨⟩
    decide
  last := by
    rw [closing]
    rintro c ⟨⟩
    decide

theorem trim_braces : Text.trim (before ++ (document ++ after)) =
    Text.trimStart before ++ (document ++ Text.trimEnd after) := by
  have edged := edged_braces starts closing
  exact Text.trim_append edged.solidHead edged.solidLast edged.nonempty

theorem braceSpan?_append {front back : List Char} (noOpening : '\x7b' ∉ front)
    (noClosing : '\x7d' ∉ back) : braceSpan? (front ++ (document ++ back)) = some document := by
  obtain ⟨inner, rfl⟩ := exists_braces starts closing
  have start : (front ++ ('\x7b' :: (inner ++ ['\x7d']) ++ back)).dropWhile (· != '\x7b') =
      '\x7b' :: (inner ++ ['\x7d'] ++ back) := by
    rw [List.dropWhile_append_of_pos fun c member => ?_]
    · rfl
    · rw [bne_iff_ne]
      rintro rfl
      exact noOpening member
  have stop : Text.dropEndWhile (· != '\x7d') (inner ++ ['\x7d'] ++ back) = inner ++ ['\x7d'] := by
    have ends : (inner ++ ['\x7d'] ++ back).reverse =
        back.reverse ++ '\x7d' :: inner.reverse := by simp
    rw [Text.dropEndWhile, ends, List.dropWhile_append_of_pos fun c member => ?_]
    · simp
    · rw [bne_iff_ne]
      rintro rfl
      exact noClosing (List.mem_reverse.mp member)
  rw [braceSpan?, start]
  simp only [stop]
  cases inner <;> rfl

include proseBefore

theorem withoutFence_braces : withoutFence (before ++ (document ++ after)) =
    Text.trim (before ++ (document ++ after)) := by
  have trimmed : Text.trim (before ++ (document ++ after)) =
      Text.trimStart before ++ (document ++ Text.trimEnd after) := trim_braces starts closing
  cases start : Text.trimStart before with
  | nil =>
      obtain ⟨inner, rfl⟩ := exists_braces starts closing
      rw [start] at trimmed
      exact withoutFence_of_cons trimmed (by decide)
  | cons c more =>
      rw [start] at trimmed
      refine withoutFence_of_cons trimmed ?_
      rintro rfl
      have member : '\x60' ∈ Text.trimStart before := start ▸ List.mem_cons_self
      exact proseBefore.notMem (by simp) ((List.dropWhile_suffix _).subset member)

theorem bare_braces : bare (before ++ (document ++ after)) =
    opening before ++ escapeSeparators (document ++ Text.trimEnd after) := by
  have edged := edged_braces starts closing
  refine bare_append (withoutFence_braces starts closing proseBefore) edged.solidHead
    edged.solidLast edged.nonempty ?_
  rw [starts]
  rintro c ⟨⟩
  decide

theorem parse_document (blank : Text.isBlankText (opening before) = true)
    (spelled : Spells true v document) {n : Json.Overlong} :
    outcome (parse (before ++ (document ++ after))) ≠ .error n := by
  intro held
  have edges := edged_braces starts closing
  have edged := escapeSeparators_edged edges
  have whole : Spells false v (escapeSeparators document) := spelled.lenient.escaped
  have brace : ∃ c ∈ (escapeSeparators document).head?, c = '[' ∨ c = '\x7b' := by
    rw [head?_escapeSeparators edges.solidHead, starts]
    exact ⟨_, rfl, .inr rfl⟩
  have gone : Text.trimStart (opening before) = [] :=
    List.dropWhile_eq_nil_iff.mpr (List.all_eq_true.mp blank)
  have text : bare (before ++ (document ++ after)) =
      opening before ++ (escapeSeparators document ++ escapeSeparators (Text.trimEnd after)) := by
    rw [bare_braces starts closing proseBefore, escapeSeparators_append]
  rcases stops_of_parse held with plain | repaired
  · rw [text, Text.trim_append edged.solidHead edged.solidLast edged.nonempty, gone,
      List.nil_append] at plain
    exact whole.not_stops brace _ plain
  · have noEscape : '\\' ∉ opening before := fun member =>
      absurd (List.all_eq_true.mp blank _ member) (by decide)
    have last : ∀ c ∈ (escapeSeparators document).getLast?, c ≠ '\\' := by
      rw [getLast?_escapeSeparators edges.solidLast, closing]
      rintro c ⟨⟩
      decide
    have mended := repairEscapes_edged edged
    rw [text, repairEscapes_append_of_notMem noEscape, repairEscapes_append last,
      Text.trim_append mended.solidHead mended.solidLast mended.nonempty, gone,
      List.nil_append] at repaired
    have closed : Json.Zone.outside.after document ≠ .broken := by
      rw [spelled.after]
      decide
    rcases repairEscapes_whole closed with same | derails
    · rw [same] at repaired
      exact whole.not_stops brace _ repaired
    · have read : Json.read false (escapeSeparators document ++ []) = .ok v := by
        rw [List.append_nil, whole.read_eq]
      rw [← outcome_read_error_iff, (derails.append _ []).outcome_eq read] at repaired
      cases repaired

/-- Prose before a document holds the reader up exactly if it does so by itself. -/
theorem outcome_parse_braces (spelled : Spells true v document) {n : Json.Overlong} :
    outcome (parse (before ++ (document ++ after))) = .error n ↔
      outcome (parse before) = .error n := by
  by_cases blank : Text.isBlankText (opening before) = true
  · refine iff_of_false (parse_document starts closing proseBefore blank spelled) fun held => ?_
    have gone : Text.trimStart (opening before) = [] :=
      List.dropWhile_eq_nil_iff.mpr (List.all_eq_true.mp blank)
    rw [proseBefore.outcome_parse_iff, gone] at held
    exact Json.not_leads_nil held
  · have whole : withoutFence (before ++ (document ++ after)) =
        Text.trim (before ++ (document ++ after)) := withoutFence_braces starts closing proseBefore
    obtain ⟨inner, rfl⟩ := exists_braces starts closing
    exact proseBefore.outcome_parse_append_iff (.inr ⟨rfl, Bool.eq_false_iff.mpr blank⟩) whole

include proseAfter

/-- If the whole text is parsed, nothing but blanks stands around the document. -/
theorem parse_braces (parsed : parse (before ++ (document ++ after)) = .ok w)
    (spelled : Spells true v document) : parse (before ++ (document ++ after)) = .ok v := by
  have whole : withoutFence (before ++ (document ++ after)) =
      Text.trim (before ++ (document ++ after)) := withoutFence_braces starts closing proseBefore
  have trimmed : Text.trim (before ++ (document ++ after)) =
      Text.trimStart before ++ (document ++ Text.trimEnd after) := trim_braces starts closing
  have mark : (before ++ (document ++ after)).find? isMark = some '\x7b' := by
    obtain ⟨inner, rfl⟩ := exists_braces starts closing
    rw [Text.find?_append_of_not proseBefore.not_isMark]
    rfl
  obtain ⟨first, last⟩ := braces_of_parse whole mark parsed
  have nothing : Text.trimEnd after = [] := by
    by_contra some
    rw [trimmed, ← List.append_assoc, List.getLast?_append_of_ne_nil _ some] at last
    have member := (Text.trimEnd_initial after).subset (List.mem_of_getLast? last)
    exact proseAfter.notMem (by simp) member
  have text : bare (before ++ (document ++ after)) =
      opening before ++ escapeSeparators (document ++ Text.trimEnd after) :=
    bare_braces starts closing proseBefore
  rw [nothing, List.append_nil] at text
  have blank : ∀ c ∈ opening before, Text.isBlank c = true := by
    rw [text, List.find?_append] at first
    cases found : (opening before).find? (fun c => !Text.isBlank c) with
    | none =>
        intro c member
        simpa using List.find?_eq_none.mp found c member
    | some c =>
        rw [found] at first
        cases first
        exact absurd (List.mem_of_find?_eq_some found) (proseBefore.notMem_opening (by simp))
  have escaped := spelled.escaped
  have candidate : Text.trim (bare (before ++ (document ++ after))) = escapeSeparators document := by
    have around := Text.trim_surrounded blank (List.forall_mem_nil _) escaped.edged.solidHead
      escaped.edged.solidLast escaped.edged.nonempty
    rwa [List.append_nil, ← text] at around
  exact parse_of_trim_bare (candidate ▸ escaped)

theorem innerFence?_braces (unmarked : ¬ Marked document) :
    innerFence? (before ++ (document ++ after)) = none := by
  rw [innerFence?_append (proseBefore.notMem (by simp))]
  refine innerFence?_of_unmarked fun marked => ?_
  obtain ⟨inner, rfl⟩ := exists_braces starts closing
  have text : '\x7b' :: (inner ++ ['\x7d']) ++ after = ('\x7b' :: inner) ++ '\x7d' :: after := by
    simp
  rw [text] at marked
  rcases marked.of_append (by decide) (by decide) with ⟨word, folds, inside⟩ | later
  · exact unmarked ⟨word, folds, List.IsInfix.trans inside (List.prefix_append _ ['\x7d']).isInfix⟩
  · exact proseAfter.unmarked later

end Bare

section Documents

variable {before document after : List Char} {v : Json}

/-- A document in braces is extracted from the prose around it, also without its thoughts, unless
the prose before it begins with an integer that is too long. -/
theorem extract_bare (loaded : Json.load document = .ok v)
    (starts : document.head? = some '\x7b') (closing : document.getLast? = some '\x7d')
    (unmarked : ¬ Marked document) (proseBefore : IsProse before) (proseAfter : IsProse after) :
    (extract false (before ++ (document ++ after)) =
        (outcome (parse before)).map fun _ => some v) ∧
      (extract true (before ++ (document ++ after)) =
        (outcome (parse before)).map fun _ => some (withoutThoughts v)) ∧
        (∀ n, outcome (parse before) = .error n → n.StandsIn before) ∧
          ∀ path, (withoutThoughts v).at? path =
            if ∃ key ∈ thoughtKeys, .key key ∈ path then none
            else (v.at? path).map withoutThoughts := by
  have reading := Json.read_of_load loaded
  have edged := edged_braces starts closing
  have spelled := Json.spells_trim_of_read reading
  rw [edged.trim_eq] at spelled
  have long : ∀ n, outcome (parse (before ++ (document ++ after))) = .error n ↔
      outcome (parse before) = .error n :=
    fun n => outcome_parse_braces starts closing proseBefore spelled
  have found : extract false (before ++ (document ++ after)) =
      (outcome (parse before)).map fun _ => some v := by
    cases held : outcome (parse before) with
    | error n => exact extract_of_long ((long n).mpr held)
    | ok other =>
        match whole : outcome (parse (before ++ (document ++ after))) with
        | .error n =>
            rw [long, held] at whole
            cases whole
        | .ok (some w) =>
            exact extract_of_parse (parse_braces starts closing proseBefore proseAfter
              (outcome_eq_some_iff.mp whole) spelled)
        | .ok none =>
            have inside := (List.dropWhile_suffix Text.isBlank (l := before)).subset
            have front := proseBefore.of_subset inside
            have back := proseAfter.of_subset (Text.trimEnd_initial after).subset
            rw [extract_of_nothing whole, trim_braces starts closing, Text.trimStart,
              innerFence?_braces starts closing front back unmarked,
              braceSpan?_append starts closing (front.notMem (by simp)) (back.notMem (by simp)),
              Option.none_or, Option.toList_some, List.map_singleton, firstFound_singleton,
              parse_of_read reading]
            rfl
  refine ⟨found, ?_, fun n => stands_of_parse, at?_withoutThoughts v⟩
  rw [extract_true, found]
  cases outcome (parse before) <;> rfl

def plan : Json :=
  .object [("thought", .string "\x7d"),
    ("steps", .array [.object [("thoughts", .null), ("name", .string "\x7b")]])]

theorem extract_bare_plan :
    let document := (Json.render .line plan).toList
    Json.load document = .ok plan ∧ document.head? = some '\x7b' ∧
      document.getLast? = some '\x7d' ∧ ¬ Marked document ∧
      extract true ("Sure: ".toList ++ (document ++ " Bye.".toList)) =
        .ok (some (.object [("steps", .array [.object [("name", .string "\x7b")]])])) := by
  have distinct : plan.Rereadable := by
    simp [plan, Json.Rereadable, Json.FieldsRereadable, Json.ItemsRereadable]
  have loaded : Json.load (Json.render .line plan).toList = .ok plan :=
    (Json.load_render .line distinct).trans rfl
  have opening : (Json.render .line plan).toList.head? = some '\x7b' := by decide +kernel
  have closing : (Json.render .line plan).toList.getLast? = some '\x7d' := by decide +kernel
  have unmarked : ¬ Marked (Json.render .line plan).toList := by
    rintro ⟨word, -, inside⟩
    have member := inside.subset (List.mem_append_left word (List.mem_cons_self (a := '\x60')))
    revert member
    decide +kernel
  have found : extract true ("Sure: ".toList ++
      ((Json.render .line plan).toList ++ " Bye.".toList)) = _ :=
    (extract_bare loaded opening closing unmarked (by decide) (by decide)).2.1
  obtain ⟨other, prose⟩ : ∃ other, outcome (parse "Sure: ".toList) = .ok other :=
    exists_outcome_of_short (by decide)
  rw [prose] at found
  exact ⟨loaded, opening, closing, unmarked, found.trans rfl⟩

/-- Behind an integer that is too long nothing is extracted. -/
theorem extract_bare_ones :
    let before := List.replicate 4301 '1' ++ [' ']
    Json.load "\x7b\x7d".toList = .ok (.object []) ∧ ¬ Marked "\x7b\x7d".toList ∧ IsProse before ∧
      extract false (before ++ ("\x7b\x7d".toList ++ [])) = .error ⟨4301⟩ := by
  have loaded : Json.load "\x7b\x7d".toList = .ok (.object []) := rfl
  have prose : IsProse (List.replicate 4301 '1' ++ [' ']) := by
    refine List.forall_mem_append.mpr ⟨fun c member => ?_, List.forall_mem_singleton.mpr (by decide)⟩
    rw [List.eq_of_mem_replicate member]
    decide
  have held : outcome (parse (List.replicate 4301 '1' ++ [' '])) = .error ⟨4301⟩ := by
    rw [← parse_trim, Text.trim_append_of_blank_end (List.forall_mem_singleton.mpr (by decide)),
      parse_trim]
    exact outcome_parse_ones (by decide)
  have spelled := Json.spells_trim_of_read (Json.read_of_load loaded)
  have unmarked : ¬ Marked "\x7b\x7d".toList := by
    rintro ⟨word, -, inside⟩
    exact absurd (inside.subset (List.mem_append_left word (List.mem_cons_self (a := '\x60'))))
      (by decide)
  exact ⟨loaded, unmarked, prose,
    extract_of_long ((outcome_parse_braces rfl rfl prose spelled).mpr held)⟩

end Documents

section Fenced

variable {before document after : List Char} {v : Json}

/-- A document in a tagged fence on lines of its own. -/
def inFence (document : List Char) : List Char :=
  '\n' :: (fence ++ (jsonWord ++ '\n' :: (document ++ '\n' :: (fence ++ ['\n']))))

theorem trim_inFence (before document after : List Char) :
    Text.trim (before ++ (inFence document ++ after)) = Text.trimStart (before ++ ['\n']) ++
      (fence ++ (jsonWord ++ ('\n' :: document ++ '\n' :: (fence ++
        Text.trimEnd ('\n' :: after))))) := by
  have shape : before ++ (inFence document ++ after) = before ++ ['\n'] ++
      (fence ++ (jsonWord ++ '\n' :: (document ++ ['\n'])) ++ fence ++ '\n' :: after) := by
    simp [inFence]
  have last : SolidLast fence := by
    rintro c ⟨⟩
    rfl
  rw [shape, Text.trim_append]
  · simp
  · rintro c ⟨⟩
    rfl
  · exact Text.solidLast_append last (List.cons_ne_nil _ _) _
  · exact List.cons_ne_nil _ _

theorem read_lines (reading : Json.read true document = .ok v) :
    Json.read true ('\n' :: document) = .ok v ∧
      Json.read true ('\n' :: document ++ ['\n']) = .ok v := by
  have line : Json.Spaces ['\n'] := List.forall_mem_singleton.mpr rfl
  have one := Json.read_spaced line (List.forall_mem_nil _) reading
  rw [List.append_nil] at one
  exact ⟨one, Json.read_spaced line line reading⟩

variable (solid : Text.isBlankText before = false) (prose : IsProse before)

include solid in
theorem trimStart_solid : Text.trimStart (before ++ ['\n']) ≠ [] := by
  intro nothing
  have blank := List.dropWhile_eq_nil_iff.mp nothing
  have all : Text.isBlankText before = true :=
    List.all_eq_true.mpr fun c member => blank c (List.mem_append_left _ member)
  rw [solid] at all
  cases all

include prose in
theorem IsProse.trimStart_line : IsProse (Text.trimStart (before ++ ['\n'])) := by
  have line : IsProse (before ++ ['\n']) :=
    List.forall_mem_append.mpr ⟨prose, List.forall_mem_singleton.mpr (by decide)⟩
  exact line.of_subset (List.dropWhile_suffix _).subset

include solid prose

/-- The mark of the fence is the first mark of the text, and the text does not begin with it. -/
theorem withoutFence_inFence : withoutFence (before ++ (inFence document ++ after)) =
    Text.trim (before ++ (inFence document ++ after)) := by
  have trimmed := trim_inFence before document after
  obtain ⟨c, more, start⟩ := List.exists_cons_of_ne_nil (trimStart_solid solid)
  rw [start] at trimmed
  refine withoutFence_of_cons trimmed ?_
  rintro rfl
  exact prose.trimStart_line.notMem (by simp) (start ▸ List.mem_cons_self)

theorem parse_inFence : parse (before ++ (inFence document ++ after)) ≠ .ok v := by
  refine parse_of_fence (withoutFence_inFence solid prose) ?_
  rw [Text.find?_append_of_not prose.not_isMark]
  rfl

theorem outcome_parse_inFence {n : Json.Overlong} :
    outcome (parse (before ++ (inFence document ++ after))) = .error n ↔
      outcome (parse before) = .error n := by
  have whole : withoutFence (before ++ (inFence document ++ after)) =
      Text.trim (before ++ (inFence document ++ after)) := withoutFence_inFence solid prose
  have line : IsProse (before ++ ['\n']) :=
    List.forall_mem_append.mpr ⟨prose, List.forall_mem_singleton.mpr (by decide)⟩
  have shape : before ++ (inFence document ++ after) =
      before ++ ['\n'] ++ '\x60' :: ((inFence document).drop 2 ++ after) := by
    simp [inFence, fence, List.replicate]
  have same : parse (before ++ ['\n']) = parse before := by
    rw [← parse_trim, Text.trim_append_of_blank_end (List.forall_mem_singleton.mpr (by decide)),
      parse_trim]
  rw [shape] at whole ⊢
  rw [line.outcome_parse_append_iff (.inl rfl) whole, same]

/-- A document in a fence is extracted from the prose around it exactly if it has no mark of a
fence in it, unless the prose before it begins with an integer that is too long. -/
theorem extract_inFence (loaded : Json.load document = .ok v) :
    (extract false (before ++ (inFence document ++ after)) =
        (outcome (parse before)).map fun _ => if fence <:+: document then none else some v) ∧
      ∀ n, outcome (parse before) = .error n → n.StandsIn before := by
  obtain ⟨line, lines⟩ := read_lines (Json.read_of_load loaded)
  refine ⟨?_, fun n => stands_of_parse⟩
  have long : ∀ n, outcome (parse (before ++ (inFence document ++ after))) = .error n ↔
      outcome (parse before) = .error n := fun n => outcome_parse_inFence solid prose
  cases held : outcome (parse before) with
  | error n => exact extract_of_long ((long n).mpr held)
  | ok other =>
    match whole : outcome (parse (before ++ (inFence document ++ after))) with
    | .error n =>
        rw [long, held] at whole
        cases whole
    | .ok (some w) => exact absurd (outcome_eq_some_iff.mp whole) (parse_inFence solid prose)
    | .ok none =>
        rw [extract_of_nothing whole, trim_inFence,
          innerFence?_append (prose.trimStart_line.notMem (by simp)), innerFence?_fence]
        by_cases inside : fence <:+: document
        · -- The fence ends at the first mark in the document, before which nothing is parsed.
          obtain ⟨beginning, rest, text, cut⟩ := Text.exists_cut?_append (List.infix_cons inside)
            ('\n' :: (fence ++ Text.trimEnd ('\n' :: after)))
          rw [text] at line
          rw [if_pos inside, cut, Option.map_some, Option.some_or, Option.toList_some,
            List.map_singleton, firstFound_singleton, parse_trim, parse_beginning line]
          rfl
        · have outside : ¬ fence <:+: '\n' :: document := by
            rw [List.infix_cons_iff, not_or]
            exact ⟨fun begins => absurd (List.cons_prefix_cons.mp begins).1 (by decide), inside⟩
          rw [if_neg inside, Text.cut?_append (by decide) (by decide) outside, Option.map_some,
            Option.some_or, Option.toList_some, List.map_singleton, firstFound_singleton,
            parse_trim, parse_of_read lines]
          rfl

end Fenced

section Quotations

def telling (content : String) : Json := .object [("content", .string content)]

theorem load_telling (content : String) :
    Json.load (Json.render .line (telling content)).toList = .ok (telling content) := by
  have distinct : (telling content).Rereadable := by
    simp [telling, Json.Rereadable, Json.FieldsRereadable]
  exact (Json.load_render .line distinct).trans rfl

theorem extract_inFence_plain :
    let document := (Json.render .line (telling "Answer in \x7b \x7d or [ ].")).toList
    Json.load document = .ok (telling "Answer in \x7b \x7d or [ ].") ∧
      Text.isBlankText "Here it is:".toList = false ∧ IsProse "Here it is:".toList ∧
      extract false ("Here it is:".toList ++ (inFence document ++ "Bye.".toList)) =
        .ok (some (telling "Answer in \x7b \x7d or [ ].")) := by
  have loaded := load_telling "Answer in \x7b \x7d or [ ]."
  have without : ¬ fence <:+: (Json.render .line (telling "Answer in \x7b \x7d or [ ].")).toList := by
    decide +kernel
  have found : extract false ("Here it is:".toList ++ (inFence _ ++ "Bye.".toList)) = _ :=
    (extract_inFence (by decide) (by decide) loaded).1
  obtain ⟨other, prose⟩ : ∃ other, outcome (parse "Here it is:".toList) = .ok other :=
    exists_outcome_of_short (by decide)
  rw [prose, if_neg without] at found
  exact ⟨loaded, by decide, by decide, found⟩

/-- The fence is closed by the one that the document quotes. -/
theorem extract_inFence_quoting :
    let document := (Json.render .line (telling "Answer in \x60\x60\x60sql.")).toList
    Json.load document = .ok (telling "Answer in \x60\x60\x60sql.") ∧
      Text.isBlankText "Here it is:".toList = false ∧ IsProse "Here it is:".toList ∧
      IsProse "Bye.".toList ∧
      extract false ("Here it is:".toList ++ (inFence document ++ "Bye.".toList)) = .ok none := by
  refine ⟨load_telling _, by decide, by decide, by decide, ?_⟩
  have nothing : ((extract false ("Here it is:".toList ++
      (inFence (Json.render .line (telling "Answer in \x60\x60\x60sql.")).toList ++
        "Bye.".toList))).toOption.map Option.isNone) = some true := by
    decide +kernel
  exact eq_ok_none_of_isNone nothing

end Quotations

end Document

namespace Import

section Braces

theorem jsonGraph_ne_some {cs : List Char} {v : Json} (plain : '\x7b' ∉ cs) :
    jsonGraph cs ≠ .ok (some v) := by
  intro found
  obtain ⟨extracted, ⟨nodes, field⟩, -⟩ := (jsonGraph_eq_some_iff cs).mp found
  have object : v.isObject = true := by
    cases v with
    | object fields => rfl
    | _ => cases field
  exact plain (Document.mem_of_extract extracted object)

theorem read_of_plain {text : String} (plain : '\x7b' ∉ text.toList) :
    read text = (Document.extract false text.toList).map fun _ =>
      (told? (Text.trim text.toList)).map Step.chain := by
  rw [read_eq]
  match found : jsonGraph text.toList with
  | .ok (some v) => exact absurd found (jsonGraph_ne_some plain)
  | .error n =>
      rw [(jsonGraph_eq_error_iff _).mp found]
      rfl
  | .ok none =>
      cases extracted : Document.extract false text.toList with
      | ok j => rfl
      | error n =>
          rw [(jsonGraph_eq_error_iff _).mpr extracted] at found
          cases found

/-- Nothing but a fenced document is sought in a text that begins with the number of a header. -/
theorem extract_of_header {cs more : List Char} (trimmed : Text.trim cs = "[1]".toList ++ more)
    (nonempty : more ≠ []) (plain : '\x7b' ∉ cs) :
    Document.extract false cs = Document.fencedOutcome (Text.trim cs) := by
  have edges := Text.trim_trim cs
  have nothing : Document.outcome (Document.parse cs) = .ok none := by
    rw [← Document.parse_trim]
    rw [trimmed] at edges ⊢
    exact Document.outcome_parse_header edges nonempty
  have noBraces : Document.braceSpan? (Text.trim cs) = none := by
    rw [Option.eq_none_iff_forall_ne_some]
    exact fun inner found => plain ((Text.trim_infix cs).subset (Document.mem_of_braceSpan? found))
  rw [Document.extract_of_nothing nothing, noBraces, Option.or_none, Document.fencedOutcome]
  cases Document.innerFence? (Text.trim cs) with
  | none => rfl
  | some inner => exact Document.firstFound_singleton _

theorem read_of_header {text : String} {more : List Char}
    (trimmed : Text.trim text.toList = "[1]".toList ++ more) (nonempty : more ≠ [])
    (plain : '\x7b' ∉ text.toList) :
    read text = (Document.fencedOutcome (Text.trim text.toList)).map fun _ =>
      (told? (Text.trim text.toList)).map Step.chain := by
  rw [read_of_plain plain, extract_of_header trimmed nonempty plain]

end Braces

end Import

end PromptCanvas
