import PromptCanvas.Proofs.Import.Repairing
import PromptCanvas.Proofs.Json.Beginnings
import PromptCanvas.Proofs.Outline.RoundTrip
import PromptCanvas.Proofs.Text.Searching
import PromptCanvas.Proofs.Text.Words

/-! # Texts that are not parsed

Whatever is parsed spells a value as it is or with repaired escapes (`exists_candidate`).  The
repair only doubles backslashes, so it changes neither the first mark of a text nor its last
character: a text whose first mark is that of a fence is not parsed (`parse_of_fence`), and one
whose first mark is a brace only from a brace to a brace (`braces_of_parse`).  A beginning of a
JSON text that ends before the mark of a fence is not parsed either (`parse_beginning`), and no
object is parsed from a text without a brace (`mem_of_parse`). -/

set_option autoImplicit false

namespace PromptCanvas

namespace Document

open Json (Spells Stops Zone)
open Text (SolidLast)

section Candidates

variable {cs : List Char} {v : Json}

theorem outcome_of_parse {found : Except Json.Overlong (Option Json)}
    (parsed : outcome (parse cs) = found) (conclusive : found ≠ .ok none) :
    outcome (Json.read false (Text.trim (bare cs))) = found ∨
      outcome (Json.read false (Text.trim (repairEscapes (bare cs)))) = found := by
  rw [outcome_parse] at parsed
  have member := mem_of_firstFound parsed conclusive
  rw [List.mem_pair] at member
  exact member.imp Eq.symm Eq.symm

theorem exists_candidate (parsed : parse cs = .ok v) :
    Spells false v (Text.trim (bare cs)) ∨
      Spells false v (Text.trim (repairEscapes (bare cs))) := by
  refine (outcome_of_parse (outcome_eq_some_iff.mpr parsed) (by simp)).imp ?_ ?_
  all_goals
    intro read
    have spelled := Json.spells_trim_of_read (outcome_eq_some_iff.mp read)
    rwa [Text.trim_trim] at spelled

theorem stops_of_parse {n : Json.Overlong} (held : outcome (parse cs) = .error n) :
    Stops false n (Text.trim (bare cs)) ∨
      Stops false n (Text.trim (repairEscapes (bare cs))) :=
  (outcome_of_parse held (by simp)).imp outcome_read_error_iff.mp outcome_read_error_iff.mp

/-- A text whose first candidate is a strict spelling is parsed as what that spells. -/
theorem parse_of_trim_bare (spelled : Spells true v (Text.trim (bare cs))) :
    parse cs = .ok v := by
  rw [← outcome_eq_some_iff, outcome_parse, spelled.lenient.read_eq]
  rfl

end Candidates

section Copies

variable {cs : List Char}

theorem find?_repairEscapes (q : Char → Bool) (cs : List Char) :
    (repairEscapes cs).find? q = cs.find? q := by
  fun_induction repairEscapes cs with
  | case1 => rfl
  | case2 => rfl
  | case3 c d rest stray ih =>
      rw [Bool.and_eq_true, decide_eq_true_iff] at stray
      rw [stray.1]
      cases holds : q '\\' with
      | true => simp [holds]
      | false => simp [holds, List.find?_cons, ih]
  | case4 c d rest other ih => rw [List.find?_cons, List.find?_cons, ih]

theorem trim_escapeSeparators (trimmed : Text.trim cs = cs) :
    Text.trim (escapeSeparators cs) = escapeSeparators cs := by
  obtain ⟨head, last⟩ := (Text.trim_eq_self_iff cs).mp trimmed
  exact Text.trim_eq_self_congr trimmed (head?_escapeSeparators head) (getLast?_escapeSeparators last)

theorem trim_repairEscapes (trimmed : Text.trim cs = cs) :
    Text.trim (repairEscapes cs) = repairEscapes cs :=
  Text.trim_eq_self_congr trimmed (head?_repairEscapes cs) (getLast?_repairEscapes cs)

end Copies

section Marks

variable {cs : List Char} {v : Json}

def isMark (c : Char) : Bool := ['\x60', '"', '[', '\x7b'].contains c

theorem isMark_iff {c : Char} :
    isMark c = true ↔ c = '\x60' ∨ c = '"' ∨ c = '[' ∨ c = '\x7b' := by
  simp [isMark]

theorem not_isMark_of_blank {c : Char} (blank : Text.isBlank c = true) : isMark c = false := by
  rw [← Bool.not_eq_true, isMark_iff]
  rintro (rfl | rfl | rfl | rfl) <;> cases blank

theorem find?_isMark_trim (cs : List Char) : (Text.trim cs).find? isMark = cs.find? isMark :=
  Text.find?_trim (fun _ blank => not_isMark_of_blank blank) cs

theorem find?_escapeSeparators (cs : List Char) :
    (escapeSeparators cs).find? isMark = cs.find? isMark := by
  induction cs with
  | nil => rfl
  | cons c cs ih =>
      rw [← List.singleton_append, escapeSeparators_append]
      by_cases separator : IsSeparator c
      · rw [Text.find?_append_of_not, Text.find?_append_of_not, ih]
        · rcases separator with rfl | rfl <;> exact List.forall_mem_singleton.mpr rfl
        · rcases separator with rfl | rfl <;> exact List.all_iff_forall_prop.mp (by decide)
      · rw [escapeSeparators_cons_of_not separator, escapeSeparators, List.flatMap_nil,
          List.find?_append, List.find?_append, ih]

theorem find?_dropWhile (cs : List Char) :
    (cs.dropWhile (· == '\ufeff')).find? isMark = cs.find? isMark := by
  have plain : ∀ c ∈ cs.takeWhile (· == '\ufeff'), isMark c = false := by
    intro c member
    have mark := List.mem_takeWhile_imp member
    rw [beq_iff_eq.mp mark]
    rfl
  conv_rhs => rw [← List.takeWhile_append_dropWhile (p := (· == '\ufeff')) (l := cs)]
  rw [Text.find?_append_of_not plain]

theorem find?_bare (whole : withoutFence cs = Text.trim cs) :
    (bare cs).find? isMark = cs.find? isMark := by
  rw [bare, find?_escapeSeparators, find?_dropWhile, whole, find?_isMark_trim]

/-- What has a mark begins with its first mark if it spells a value, and with none of a fence. -/
theorem head?_of_find? {strict : Bool} {m : Char} (spelled : Spells strict v cs)
    (found : cs.find? isMark = some m) : cs.head? = some m ∧ m ≠ '\x60' := by
  cases spelled with
  | scalar spelled =>
      have plain : ∀ c ∈ cs, isMark c = false := by
        refine spelled.forall_mem ?_ (List.all_iff_forall_prop.mp (by decide))
        intro c digit
        rw [← Bool.not_eq_true, isMark_iff]
        rintro (rfl | rfl | rfl | rfl) <;> cases digit
      have marked := List.find?_some found
      rw [plain m (List.mem_of_find?_eq_some found)] at marked
      cases marked
  | string spelled =>
      cases spelled
      cases found
      exact ⟨rfl, by decide⟩
  | noItems | array | noFields | object =>
      cases found
      exact ⟨rfl, by decide⟩

/-- A text whose first mark is that of a fence is not parsed if it does not begin with it. -/
theorem parse_of_fence (whole : withoutFence cs = Text.trim cs)
    (mark : cs.find? isMark = some '\x60') : parse cs ≠ .ok v := by
  intro parsed
  rw [← find?_bare whole] at mark
  rcases exists_candidate parsed with plain | repaired
  · rw [← find?_isMark_trim] at mark
    exact absurd rfl (head?_of_find? plain mark).2
  · rw [← find?_repairEscapes, ← find?_isMark_trim] at mark
    exact absurd rfl (head?_of_find? repaired mark).2

/-- A text whose first mark is a brace is parsed only from a brace to a brace. -/
theorem braces_of_parse (whole : withoutFence cs = Text.trim cs)
    (mark : cs.find? isMark = some '\x7b') (parsed : parse cs = .ok v) :
    (bare cs).find? (fun c => !Text.isBlank c) = some '\x7b' ∧
      (Text.trim cs).getLast? = some '\x7d' := by
  have final : (Text.trim cs).dropWhile (· == '\ufeff') <:+ Text.trim cs :=
    List.dropWhile_suffix _
  have solid := (Text.solidLast_trim cs).back final
  have same : (bare cs).getLast? = ((Text.trim cs).dropWhile (· == '\ufeff')).getLast? := by
    rw [bare, whole, getLast?_escapeSeparators solid]
  have ends : SolidLast (bare cs) := by
    rw [SolidLast, same]
    exact solid
  -- The repaired text has the first characters and the last one of the bare text.
  have either : ∀ text : List Char, (∀ q, text.find? q = (bare cs).find? q) →
      text.getLast? = (bare cs).getLast? → Spells false v (Text.trim text) →
      (bare cs).find? (fun c => !Text.isBlank c) = some '\x7b' ∧
        (bare cs).getLast? = some '\x7d' := by
    intro text first last spelled
    have marked : (Text.trim text).find? isMark = some '\x7b' := by
      rw [find?_isMark_trim, first, find?_bare whole, mark]
    have opening := (head?_of_find? spelled marked).1
    have closing := (spelled.braced opening).1
    have solidText : SolidLast text := by
      rw [SolidLast, last]
      exact ends
    rw [Text.head?_trim, first] at opening
    rw [Text.getLast?_trim solidText, last] at closing
    exact ⟨opening, closing⟩
  have braces : (bare cs).find? (fun c => !Text.isBlank c) = some '\x7b' ∧
      (bare cs).getLast? = some '\x7d' := by
    rcases exists_candidate parsed with plain | repaired
    · exact either _ (fun _ => rfl) rfl plain
    · exact either _ (find?_repairEscapes · _) (getLast?_repairEscapes _) repaired
  obtain ⟨front, back⟩ := final
  refine ⟨braces.1, ?_⟩
  rw [← back, List.getLast?_append, ← same, braces.2]
  rfl

end Marks

section Halves

open Json (BreaksNumbers Derails NumberEnds)
open Json.Piece (Placed)
open Json.Zone (outside)

variable {cs front rest : List Char} {v : Json}

theorem placed_map (z : Zone) (cs : List Char) : Placed z (cs.map .kept) := by
  induction cs generalizing z with
  | nil => trivial
  | cons c cs ih => exact ih (z.next c)

/-- The repair leaves the beginning of a JSON text as it is or makes it derail. -/
theorem repairEscapes_whole (whole : outside.after cs ≠ .broken) :
    repairEscapes (escapeSeparators cs) = escapeSeparators cs ∨
      Derails outside (repairEscapes (escapeSeparators cs)) (escapeSeparators cs) := by
  have placed := placed_map outside cs
  rw [← Json.Piece.original_map cs] at whole
  by_cases untangled : Untangled outside (cs.map .kept)
  · have kept := repairEscapes_marred placed whole untangled
    rw [Json.Piece.marred_map, Json.Piece.mended_map] at kept
    exact .inl kept
  · have derails := derails_repairEscapes_marred placed whole untangled
    rw [Json.Piece.marred_map, Json.Piece.mended_map] at derails
    exact .inr derails

theorem breaksNumbers_of_isBlank {c : Char} (blank : Text.isBlank c = true) : BreaksNumbers c := by
  refine ⟨?_, ?_⟩
  · rw [← Bool.not_eq_true]
    intro digit
    rw [(Text.isPrinted_of_isDigit digit).solid] at blank
    cases blank
  · have solid : ['.', 'e', 'E', '+', '-'].any Text.isBlank = false := by decide
    intro member
    exact List.any_eq_false.mp solid c member blank

/-- Where the first character ends numbers, so does the first of the escaped text. -/
theorem exists_escapeSeparators_cons {c : Char} (breaks : BreaksNumbers c) (cs : List Char) :
    ∃ d more, escapeSeparators (c :: cs) = d :: more ∧ BreaksNumbers d := by
  by_cases separator : IsSeparator c
  · obtain ⟨d, -, same⟩ := exists_escapeSeparators separator
    exact ⟨_, _, same cs, by decide⟩
  · exact ⟨c, _, escapeSeparators_cons_of_not separator cs, breaks⟩

theorem bare_of_printed (printed : ∀ c ∈ (Text.trim cs).head?, Text.IsPrinted c) :
    bare cs = escapeSeparators (Text.trim cs) := by
  rw [bare, withoutFence_of_head fun c head => (printed c head).2.2,
    dropWhile_of_printed printed]

/-- Trimming leaves a beginning of the spelling, and blanks before the mark. -/
theorem exists_beginning (reading : Json.read true (front ++ '\x60' :: rest) = .ok v) :
    ∃ gap back, (∀ c ∈ gap, Text.isBlank c = true) ∧
      Spells true v (Text.trim front ++ (gap ++ '\x60' :: back)) := by
  refine ⟨(Text.trimStart front).rtakeWhile Text.isBlank, Text.trimEnd rest,
    fun _ member => List.mem_rtakeWhile_imp member, ?_⟩
  have start : Text.trim front ++ (Text.trimStart front).rtakeWhile Text.isBlank =
      Text.trimStart front := List.rdropWhile_append_rtakeWhile
  have mark : Text.trim (front ++ (['\x60'] ++ rest)) =
      Text.trimStart front ++ (['\x60'] ++ Text.trimEnd rest) :=
    Text.trim_append (by rintro c ⟨⟩; decide) (by rintro c ⟨⟩; decide) (List.cons_ne_nil _ _)
  rw [← List.append_assoc, start]
  exact mark ▸ Json.spells_trim_of_read reading

/-- A value ends where its spelling does, and what stops the reader in a beginning of it stops it
in the whole. -/
theorem outcome_read_beginning {c : Char} (trimmed : Text.trim front = front)
    (breaks : BreaksNumbers c) (whole : Spells false v (front ++ c :: rest)) :
    outcome (Json.read false front) = .ok none := by
  match found : outcome (Json.read false front) with
  | .ok none => rfl
  | .ok (some w) =>
      have spelled := Json.spells_trim_of_read (outcome_eq_some_iff.mp found)
      rw [trimmed] at spelled
      exact absurd (spelled.eq_nil_of_append (breaks.numberEnds rest) whole) (List.cons_ne_nil _ _)
  | .error n =>
      have stops : Json.Stops false n (front ++ c :: rest) :=
        (outcome_read_error_iff.mp found).append breaks
      rw [← outcome_read_error_iff, whole.read_eq] at stops
      cases stops

theorem parse_beginning (reading : Json.read true (front ++ '\x60' :: rest) = .ok v) :
    outcome (parse front) = .ok none := by
  obtain ⟨gap, back, blank, spelled⟩ := exists_beginning reading
  have printed : ∀ c ∈ (Text.trim front).head?, Text.IsPrinted c := by
    intro c head
    refine spelled.edged.head c ?_
    rw [List.head?_append, Option.mem_def.mp head]
    rfl
  have edges := trim_escapeSeparators (Text.trim_trim front)
  obtain ⟨d, more, behind, breaks⟩ : ∃ d more,
      escapeSeparators (gap ++ '\x60' :: back) = d :: more ∧ BreaksNumbers d := by
    cases gap with
    | nil => exact exists_escapeSeparators_cons (by decide) back
    | cons b gap =>
        exact exists_escapeSeparators_cons
          (breaksNumbers_of_isBlank (blank b List.mem_cons_self)) _
  have whole : Spells false v (escapeSeparators (Text.trim front) ++ d :: more) := by
    rw [← behind, ← escapeSeparators_append]
    exact spelled.lenient.escaped
  have plain := outcome_read_beginning edges breaks whole
  have unbroken : Zone.after .outside (Text.trim front) ≠ .broken := by
    intro broken
    have closed := spelled.after
    rw [Zone.after_append, broken, Zone.after_broken] at closed
    cases closed
  have repaired : outcome (Json.read false (repairEscapes (escapeSeparators (Text.trim front)))) =
      .ok none := by
    rcases repairEscapes_whole unbroken with same | derails
    · rw [same, plain]
    · exact derails.outcome_of_beginning whole.read_eq
  rw [outcome_parse, bare_of_printed printed, edges, trim_repairEscapes edges, plain, repaired]
  rfl

end Halves

section Braces

variable {cs : List Char} {v : Json}

theorem prefix_of_beforeFence? {body : List Char} (found : beforeFence? cs = some body) :
    body <+: cs := by
  obtain ⟨rest, begins, rfl⟩ := Option.map_eq_some_iff.mp found
  have whole := List.isPrefixOf?_eq_some_iff_append_eq.mp begins
  exact ⟨fence, List.reverse_injective (by rw [List.reverse_append, List.reverse_reverse]; exact whole)⟩

theorem dropTag_suffix (cs : List Char) : dropTag cs <:+ cs := by
  unfold dropTag
  split
  · next found =>
      rw [(Text.word?_eq_some found).1]
      exact List.suffix_append _ _
  · exact List.suffix_rfl

theorem infix_withoutFence (cs : List Char) : withoutFence cs <:+: cs := by
  refine List.IsInfix.trans ?_ (Text.trim_infix cs)
  rw [withoutFence]
  cases found : fencedBody? (Text.trim cs) with
  | none => exact List.infix_rfl
  | some body =>
      rw [Option.getD_some]
      unfold fencedBody? at found
      split at found
      · next rest begins =>
          obtain ⟨inner, before, rfl⟩ := Option.map_eq_some_iff.mp found
          have whole := List.isPrefixOf?_eq_some_iff_append_eq.mp begins
          have rests : rest <:+ Text.trim cs := ⟨fence, whole⟩
          calc Text.trim inner
            _ <:+: inner := Text.trim_infix inner
            _ <:+: dropTag rest := (prefix_of_beforeFence? before).isInfix
            _ <:+: rest := (dropTag_suffix rest).isInfix
            _ <:+: Text.trim cs := rests.isInfix
      · cases found

theorem mem_of_mem_escapeSeparators {c : Char} (member : c ∈ escapeSeparators cs)
    (other : c ∉ ['\\', 'u', '2', '0', '8', '9']) : c ∈ cs := by
  obtain ⟨d, inside, written⟩ := List.mem_flatMap.mp member
  by_cases separator : IsSeparator d
  · refine absurd ?_ other
    have line : "\\u2028".toList ⊆ ['\\', 'u', '2', '0', '8', '9'] := by decide
    have paragraph : "\\u2029".toList ⊆ ['\\', 'u', '2', '0', '8', '9'] := by decide
    rcases separator with rfl | rfl
    · exact line written
    · exact paragraph written
  · obtain ⟨line, paragraph⟩ := not_or.mp separator
    rw [if_neg line, if_neg paragraph, List.mem_singleton] at written
    rwa [written]

theorem mem_of_mem_repairEscapes {c : Char} (member : c ∈ repairEscapes cs) : c ∈ cs := by
  have found : ((repairEscapes cs).find? (· == c)).isSome = true :=
    List.find?_isSome.mpr ⟨c, member, beq_self_eq_true c⟩
  rw [find?_repairEscapes, List.find?_isSome] at found
  obtain ⟨d, inside, same⟩ := found
  rwa [beq_iff_eq.mp same] at inside

theorem mem_of_parse (parsed : parse cs = .ok v) (object : v.isObject = true) : '\x7b' ∈ cs := by
  have plain : '\x7b' ∈ bare cs → '\x7b' ∈ cs := fun member =>
    (infix_withoutFence cs).subset ((List.dropWhile_suffix _).subset
      (mem_of_mem_escapeSeparators member (by decide)))
  rcases exists_candidate parsed with spelled | spelled
  · exact plain (Outline.trim_subset _ (spelled.mem_of_isObject object))
  · exact plain (mem_of_mem_repairEscapes (Outline.trim_subset _ (spelled.mem_of_isObject object)))

end Braces

end Document

end PromptCanvas
