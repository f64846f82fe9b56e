import PromptCanvas.Proofs.Import.LongIntegers
import PromptCanvas.Proofs.Import.Prose
import PromptCanvas.Proofs.Json.Returns

/-! # Documents with both ends of lines

A text without braces comes to the same extraction, up to the strings in what is read, whether its
lines end with newlines alone or with a carriage return before each
(`verdict_extract_withReturns`): fences and escapes are where they were, and what is between them
is read alike. -/

set_option autoImplicit false

namespace PromptCanvas

open Text (withReturns)

namespace Document

section Fences

variable {cs body : List Char}

theorem dropTag_withReturns (cs : List Char) :
    dropTag (withReturns cs) = withReturns (dropTag cs) := by
  rw [dropTag, dropTag, Text.word?_withReturns (by decide) (by decide)]
  cases Text.word? jsonWord cs <;> rfl

theorem beforeFence?_eq_some_iff : beforeFence? cs = some body ↔ cs = body ++ fence := by
  constructor
  · intro found
    obtain ⟨rest, begins, rfl⟩ := Option.map_eq_some_iff.mp found
    have whole := List.isPrefixOf?_eq_some_iff_append_eq.mp begins
    refine List.reverse_injective ?_
    rw [List.reverse_append, List.reverse_reverse]
    exact whole.symm
  · rintro rfl
    exact beforeFence?_append body

theorem beforeFence?_withReturns (cs : List Char) :
    beforeFence? (withReturns cs) = (beforeFence? cs).map withReturns := by
  cases found : beforeFence? cs with
  | some body =>
      rw [beforeFence?_eq_some_iff.mp found, Text.withReturns_append]
      exact beforeFence?_append (withReturns body)
  | none =>
      refine Option.eq_none_iff_forall_ne_some.mpr fun body again => ?_
      obtain ⟨own, rfl, -⟩ := Text.exists_of_withReturns_append (by decide)
        (beforeFence?_eq_some_iff.mp again)
      rw [beforeFence?_append] at found
      cases found

theorem fencedBody?_withReturns (cs : List Char) :
    fencedBody? (withReturns cs) = (fencedBody? cs).map withReturns := by
  rw [fencedBody?, fencedBody?, Text.isPrefixOf?_withReturns (by decide) (by decide)]
  cases fence.isPrefixOf? cs with
  | none => rfl
  | some rest =>
      simp only [Option.map_some]
      rw [dropTag_withReturns, beforeFence?_withReturns]
      simp only [Option.map_map, Function.comp_def, Text.trim_withReturns]

theorem withoutFence_withReturns (cs : List Char) :
    withoutFence (withReturns cs) = withReturns (withoutFence cs) := by
  rw [withoutFence, withoutFence, Text.trim_withReturns, fencedBody?_withReturns]
  cases fencedBody? (Text.trim cs) <;> rfl

theorem innerFence?_withReturns (cs : List Char) :
    innerFence? (withReturns cs) = (innerFence? cs).map withReturns := by
  have opened : ∀ cs : List Char,
      ((fence.isPrefixOf? (withReturns cs)).bind fun rest => Text.word? jsonWord rest) =
        ((fence.isPrefixOf? cs).bind fun rest => Text.word? jsonWord rest).map
          fun found => (found.1, withReturns found.2) := by
    intro cs
    rw [Text.isPrefixOf?_withReturns (by decide) (by decide)]
    cases fence.isPrefixOf? cs with
    | none => rfl
    | some rest => exact Text.word?_withReturns (by decide) (by decide) rest
  induction cs with
  | nil => rfl
  | cons c cs ih =>
      by_cases newline : c = '\n'
      · rw [newline]
        exact ih
      · have here := opened (c :: cs)
        rw [Text.withReturns_cons newline] at here ⊢
        rw [innerFence?, innerFence?, here]
        cases (fence.isPrefixOf? (c :: cs)).bind fun rest => Text.word? jsonWord rest with
        | none => exact ih
        | some found =>
            simp only [Option.map_some]
            rw [Text.cut?_withReturns (by decide) (by decide)]
            simp only [Option.map_map, Function.comp_def, Text.trim_withReturns]

theorem braceSpan?_eq_none (plain : '\x7b' ∉ cs) : braceSpan? cs = none := by
  have nothing : cs.dropWhile (· != '\x7b') = [] := List.dropWhile_eq_nil_iff.mpr fun c member => by
    simp only [bne_iff_ne, ne_eq]
    rintro rfl
    exact plain member
  rw [braceSpan?, nothing]

end Fences

section Candidates

variable (cs : List Char)

theorem escapeSeparators_withReturns :
    escapeSeparators (withReturns cs) = withReturns (escapeSeparators cs) := by
  unfold escapeSeparators withReturns
  rw [List.flatMap_assoc, List.flatMap_assoc]
  refine List.flatMap_congr fun c _ => ?_
  by_cases newline : c = '\n'
  · rw [newline]
    rfl
  by_cases separator : IsSeparator c
  · rcases separator with rfl | rfl <;> rfl
  · obtain ⟨line, paragraph⟩ := not_or.mp separator
    simp only [if_neg newline, if_neg line, if_neg paragraph, List.flatMap_cons, List.flatMap_nil,
      List.append_nil]

theorem repairEscapes_withReturns :
    repairEscapes (withReturns cs) = withReturns (repairEscapes cs) := by
  have line : ∀ rest, repairEscapes ('\r' :: '\n' :: rest) = '\r' :: '\n' :: repairEscapes rest := by
    intro rest
    rw [repairEscapes_cons (by decide), repairEscapes_cons (by decide)]
  fun_induction repairEscapes cs with
  | case1 => rfl
  | case2 c =>
      by_cases newline : c = '\n'
      · rw [newline]
        rfl
      · rw [Text.withReturns_cons newline]
        rfl
  | case3 c d rest stray ih =>
      have escape : c = '\\' := by
        rw [Bool.and_eq_true, decide_eq_true_iff] at stray
        exact stray.1
      rw [escape] at stray ⊢
      simp only [Text.withReturns_cons (c := '\\') (by decide)]
      by_cases newline : d = '\n'
      · rw [newline, Text.withReturns_newline, Text.withReturns_newline, repairEscapes,
          if_pos (by decide), repairEscapes_cons (by decide), ih]
      · rw [Text.withReturns_cons newline, Text.withReturns_cons newline, repairEscapes,
          if_pos stray, ih]
  | case4 c d rest other ih =>
      by_cases newline : c = '\n'
      · rw [newline, Text.withReturns_newline, Text.withReturns_newline, line, ih]
      rw [Text.withReturns_cons newline, Text.withReturns_cons newline]
      by_cases escape : c = '\\'
      · have unbroken : d ≠ '\n' := by
          intro newline
          exact other (by rw [escape, newline]; rfl)
        rw [Text.withReturns_cons unbroken] at ih ⊢
        rw [repairEscapes, if_neg other, ih]
      · rw [repairEscapes_cons escape, ih]

theorem bare_withReturns : bare (withReturns cs) = withReturns (bare cs) := by
  rw [bare, withoutFence_withReturns, Text.dropWhile_withReturns (by decide),
    escapeSeparators_withReturns, bare]

end Candidates

section Extraction

/-- Whether there is a value, unless an integer is too long. -/
def verdict (found : Except Json.Overlong (Option Json)) : Except Json.Overlong Bool :=
  found.map Option.isSome

theorem verdict_read_withReturns (cs : List Char) :
    verdict (outcome (Json.read false (withReturns cs))) =
      verdict (outcome (Json.read false cs)) := by
  have stops : ∀ n, outcome (Json.read false (withReturns cs)) = .error n ↔
      outcome (Json.read false cs) = .error n := fun n => by
    rw [outcome_read_error_iff, outcome_read_error_iff, Json.stops_withReturns_iff]
  have reads : (∃ v, outcome (Json.read false (withReturns cs)) = .ok (some v)) ↔
      ∃ v, outcome (Json.read false cs) = .ok (some v) := by
    simp only [outcome_eq_some_iff, Json.read_withReturns_iff]
  generalize outcome (Json.read false (withReturns cs)) = first at stops reads
  generalize outcome (Json.read false cs) = second at stops reads
  rcases first with n | _ | v
  · rw [(stops n).mp rfl]
  · rcases second with m | _ | w
    · exact absurd ((stops m).mpr rfl) nofun
    · rfl
    · obtain ⟨v, same⟩ := reads.mpr ⟨w, rfl⟩
      cases same
  · obtain ⟨w, same⟩ := reads.mp ⟨v, rfl⟩
    rw [same]
    rfl

theorem verdict_firstFound {first second : Except Json.Overlong (Option Json)}
    {tries others : List (Except Json.Overlong (Option Json))}
    (same : verdict first = verdict second)
    (rest : verdict (firstFound tries) = verdict (firstFound others)) :
    verdict (firstFound (first :: tries)) = verdict (firstFound (second :: others)) := by
  rcases first with n | _ | v
  · rcases second with m | _ | w
    · exact same
    · cases same
    · cases same
  · rcases second with m | _ | w
    · cases same
    · exact rest
    · cases same
  · rcases second with m | _ | w
    · cases same
    · cases same
    · rfl

theorem verdict_parse_withReturns (cs : List Char) :
    verdict (outcome (parse (withReturns cs))) = verdict (outcome (parse cs)) := by
  rw [outcome_parse, outcome_parse, bare_withReturns, repairEscapes_withReturns,
    Text.trim_withReturns, Text.trim_withReturns]
  exact verdict_firstFound (verdict_read_withReturns _)
    (verdict_firstFound (verdict_read_withReturns _) rfl)

theorem verdict_extract_withReturns {cs : List Char} (plain : '\x7b' ∉ cs) :
    verdict (extract false (withReturns cs)) = verdict (extract false cs) := by
  have absent : '\x7b' ∉ Text.trim cs := fun member => plain (Outline.trim_subset _ member)
  have returned : '\x7b' ∉ withReturns (Text.trim cs) := by
    rwa [Text.mem_withReturns (by decide)]
  rw [extract_false, extract_false, Text.trim_withReturns, innerFence?_withReturns,
    braceSpan?_eq_none absent, braceSpan?_eq_none returned, Option.or_none, Option.or_none]
  refine verdict_firstFound (verdict_parse_withReturns _) ?_
  cases innerFence? (Text.trim cs) with
  | none => rfl
  | some inner => exact verdict_firstFound (verdict_parse_withReturns inner) rfl

end Extraction

end Document

namespace Import

theorem jsonGraph_eq_verdict {cs : List Char} (plain : '\x7b' ∉ cs) :
    jsonGraph cs = (Document.verdict (Document.extract false cs)).map fun _ => none := by
  cases found : jsonGraph cs with
  | error n =>
      rw [(jsonGraph_eq_error_iff cs).mp found]
      rfl
  | ok graph =>
      cases graph with
      | some v => exact absurd found (jsonGraph_ne_some plain)
      | none =>
          cases extracted : Document.extract false cs with
          | error n =>
              rw [(jsonGraph_eq_error_iff cs).mpr extracted] at found
              cases found
          | ok value => rfl

theorem jsonGraph_withReturns {cs : List Char} (plain : '\x7b' ∉ cs) :
    jsonGraph (withReturns cs) = jsonGraph cs := by
  have returned : '\x7b' ∉ withReturns cs := by rwa [Text.mem_withReturns (by decide)]
  rw [jsonGraph_eq_verdict plain, jsonGraph_eq_verdict returned,
    Document.verdict_extract_withReturns plain]

end Import

end PromptCanvas
