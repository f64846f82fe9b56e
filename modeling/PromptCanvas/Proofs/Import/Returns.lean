import PromptCanvas.Proofs.Import.Relining
import PromptCanvas.Proofs.Import.ReturnedDocuments
import PromptCanvas.Proofs.Import.RoleBlocks
import PromptCanvas.Proofs.Text.Returns
import PromptCanvas.Workspace.Session

/-! # Ends of lines

A text is imported alike whether its lines end with newlines alone or with a carriage return before
each (`graphOfText_withReturns`).  Most dialects read the trimmed lines of a text, which are the
same.  In role blocks and in plain text the returns stay inside the contents
(`roleBlocks_withReturns`), and only the lists that the contents are read as are the same again. -/

set_option autoImplicit false

namespace PromptCanvas

open Text (withReturns)

namespace Outline

section Lines

theorem padded_withReturns (cs : List Char) :
    List.Forall₂ Padded (Text.lines (withReturns cs)) (Text.lines cs) := by
  induction cs with
  | nil => exact .cons (padded_self []) .nil
  | cons c cs ih =>
      by_cases newline : c = '\n'
      · have returned : Text.lines (withReturns ('\n' :: cs)) =
            ['\r'] :: Text.lines (withReturns cs) := rfl
        have broken : Text.lines ('\n' :: cs) = [] :: Text.lines cs := rfl
        rw [newline, returned, broken]
        exact .cons ⟨['\r'], List.forall_mem_singleton.mpr (by decide), rfl⟩ ih
      · obtain ⟨first, others, longer⟩ := Text.exists_splitOn '\n' (withReturns cs)
        obtain ⟨line, rest, shorter⟩ := Text.exists_splitOn '\n' cs
        rw [Text.lines, longer, Text.lines, shorter, List.forall₂_cons] at ih
        rw [Text.withReturns_cons newline, lines_cons newline longer, lines_cons newline shorter]
        exact .cons (ih.1.cons c) ih.2

theorem trimmedLines_withReturns (cs : List Char) :
    trimmedLines (withReturns cs) = trimmedLines cs :=
  trimmedLines_congr (padded_withReturns cs)

end Lines

end Outline

namespace Import

open Outline (Padded)

section Headers

variable (cs : List Char)

theorem bracketed?_withReturns {words : List (List Char)}
    (plain : ∀ word ∈ words, '\n' ∉ word ∧ '\r' ∉ word) :
    bracketed? words (withReturns cs) =
      (bracketed? words cs).map fun found => (found.1, found.2.1, withReturns found.2.2) := by
  by_cases opened : cs.head? = some '['
  · obtain ⟨rest, rfl⟩ := List.head?_eq_some_iff.mp opened
    rw [Text.withReturns_cons (by decide)]
    by_cases closed : (rest.dropWhile Text.isDigit).head? = some ']'
    · obtain ⟨tail, behind⟩ := List.head?_eq_some_iff.mp closed
      have unbroken : '\n' ∉ rest.takeWhile Text.isDigit := fun member =>
        absurd (List.mem_takeWhile_imp member) (by decide)
      have cut : rest.span Text.isDigit = (rest.takeWhile Text.isDigit, ']' :: tail) := by
        rw [List.span_eq_takeWhile_dropWhile, behind]
      have again : (withReturns rest).span Text.isDigit =
          (rest.takeWhile Text.isDigit, ']' :: withReturns tail) := by
        rw [Text.span_withReturns (by decide), cut, Text.withReturns_of_unbroken unbroken,
          Text.withReturns_cons (by decide)]
      rw [bracketed?_of_closed cut, bracketed?_of_closed again, Text.trimStart_withReturns,
        Text.oneOf?_withReturns plain]
      split
      · rfl
      · rw [Option.map_map, Option.map_map]
        rfl
    · have other : ∀ c ∈ (rest.dropWhile Text.isDigit).head?, c ≠ ']' :=
        fun c head same => closed (same ▸ head)
      have returned := Text.head?_withReturns_ne (by decide) other
      rw [← Text.dropWhile_withReturns (by decide)] at returned
      rw [bracketed?_of_open other, bracketed?_of_open returned]
      rfl
  · have other : ∀ c ∈ cs.head?, c ≠ '[' := fun c head same => opened (same ▸ head)
    have returned := Text.head?_withReturns_ne (by decide) other
    rw [bracketed?_of_head other, bracketed?_of_head returned]
    rfl

theorem afterNewline?_withReturns :
    afterNewline? (withReturns cs) = (afterNewline? cs).map withReturns := by
  have blanks := Text.takeWhile_withReturns (p := Text.isBlank) (by decide)
  by_cases member : '\n' ∈ cs.takeWhile Text.isBlank
  · obtain ⟨gap, below, whole, blank, bare⟩ := exists_lastNewline member
    have front : ∀ c ∈ withReturns gap ++ ['\r'], Text.isBlank c = true :=
      List.forall_mem_append.mpr
        ⟨Text.isBlank_withReturns blank, List.forall_mem_singleton.mpr (by decide)⟩
    have under : '\n' ∉ (withReturns below).takeWhile Text.isBlank := by
      rw [blanks, Text.mem_withReturns (by decide)]
      exact bare
    have written : withReturns (gap ++ '\n' :: below) =
        (withReturns gap ++ ['\r']) ++ '\n' :: withReturns below := by
      rw [Text.withReturns_append, Text.withReturns_newline]
      simp
    rw [whole, written, afterNewline?_append front under, afterNewline?_append blank bare]
    rfl
  · have under : '\n' ∉ (withReturns cs).takeWhile Text.isBlank := by
      rw [blanks, Text.mem_withReturns (by decide)]
      exact member
    rw [afterNewline?_eq_none member, afterNewline?_eq_none under]
    rfl

theorem roleHeader?_withReturns : roleHeader? (withReturns cs) =
    (roleHeader? cs).map fun found => (found.1, withReturns found.2) := by
  rw [roleHeader?, roleHeader?, bracketed?_withReturns cs (by decide)]
  cases bracketed? roleWords cs with
  | none => rfl
  | some found =>
      simp only [Option.map_some, afterNewline?_withReturns, Option.map_map]
      rfl

end Headers

section Blocks

/-- A body may get a return at its end; the text behind it holds the same blocks. -/
theorem spanBody_withReturns (cs : List Char) :
    Padded (spanBody (withReturns cs)).1 (withReturns (spanBody cs).1) ∧
      blocksIn (spanBody (withReturns cs)).2 = blocksIn (withReturns (spanBody cs).2) := by
  induction cs with
  | nil => exact ⟨Outline.padded_self [], rfl⟩
  | cons c cs ih =>
      by_cases newline : c = '\n'
      · have header := congrArg Option.isSome (roleHeader?_withReturns cs)
        rw [Option.isSome_map] at header
        rw [newline, Text.withReturns_newline, spanBody_cons_of_ne (by decide), spanBody, spanBody,
          header]
        cases (roleHeader? cs).isSome with
        | true =>
            -- The body ends before the newline, so that the return is still in it.
            refine ⟨⟨['\r'], List.forall_mem_singleton.mpr (by decide), rfl⟩, ?_⟩
            exact (blocksIn_cons_of_ne (by decide) _).symm
        | false => exact ⟨(ih.1.cons '\n').cons '\r', ih.2⟩
      · rw [Text.withReturns_cons newline, spanBody_cons_of_ne newline, spanBody_cons_of_ne newline,
          Text.withReturns_cons newline]
        exact ⟨ih.1.cons c, ih.2⟩

theorem blocksIn_withReturns (cs : List Char) : blocksIn (withReturns cs) =
    (blocksIn cs).map fun found => (found.1, withReturns found.2) := by
  -- On the length, as the blocks go on behind the whole body that follows a header.
  induction bound : cs.length using Nat.strong_induction_on generalizing cs with
  | _ n ih =>
      cases cs with
      | nil => rfl
      | cons c cs =>
          have headers := roleHeader?_withReturns (c :: cs)
          cases header : roleHeader? (c :: cs) with
          | some found =>
              obtain ⟨word, after⟩ := found
              obtain ⟨⟨back, blank, body⟩, same⟩ := spanBody_withReturns after
              have less := length_roleHeader? header
              have rest := length_spanBody after
              rw [header, Option.map_some] at headers
              rw [blocksIn_of_header headers, blocksIn_of_header header, same,
                ih _ (by omega) _ rfl, body, Text.trim_append_of_blank_end blank,
                Text.trim_withReturns]
              rfl
          | none =>
              have less : cs.length < n := by
                rw [← bound, List.length_cons]
                omega
              rw [header, Option.map_none] at headers
              rw [blocksIn_cons header, ← ih _ less _ rfl]
              by_cases newline : c = '\n'
              · rw [newline, Text.withReturns_newline, blocksIn_cons_of_ne (by decide),
                  blocksIn_cons_of_ne (by decide)]
              · rw [Text.withReturns_cons newline] at headers ⊢
                exact blocksIn_cons headers

def Step.returned (s : Step) : Step :=
  { s with content := String.ofList (withReturns s.content.toList) }

theorem returned_stepOf (word content : List Char) :
    (stepOf word content).returned = stepOf word (withReturns content) := by
  rw [stepOf, stepOf, Step.returned, String.toList_ofList]

theorem roleBlocks_withReturns (cs : List Char) :
    roleBlocks (withReturns cs) = (roleBlocks cs).map (List.map Step.returned) := by
  have kept : (fun b : List Char × List Char => !b.2.isEmpty) ∘
      (fun found : List Char × List Char => (found.1, withReturns found.2)) =
        fun b => !b.2.isEmpty := by
    funext found
    rw [Function.comp_apply, Text.isEmpty_withReturns]
  rw [roleBlocks_eq, roleBlocks_eq, Text.trim_withReturns, blocksIn_withReturns, List.filter_map,
    kept]
  cases (blocksIn (Text.trim cs)).filter fun b => !b.2.isEmpty with
  | nil => rfl
  | cons b bs => simp [returned_stepOf]

end Blocks

section Dialects

theorem plainText_withReturns (cs : List Char) :
    plainText (withReturns cs) = (plainText cs).map (List.map Step.returned) := by
  by_cases nothing : Text.trim cs = []
  · rw [plainText, plainText, Text.trim_withReturns, nothing]
    rfl
  · have some : Text.trim (withReturns cs) ≠ [] := by
      rwa [Text.trim_withReturns, ne_eq, ← List.isEmpty_iff, Text.isEmpty_withReturns,
        List.isEmpty_iff]
    rw [plainText_eq nothing, plainText_eq some, Text.trim_withReturns]
    simp [Step.returned]

theorem relined_returned (s : Step) : s.returned.relined = s.relined := by
  rw [Step.relined, Step.relined, Step.returned, relined, relined, String.toList_ofList,
    Outline.trimmedLines_withReturns]

theorem map_relined_returned (steps : List Step) :
    (steps.map Step.returned).map Step.relined = steps.map Step.relined := by
  rw [List.map_map]
  exact List.map_congr_left fun s _ => relined_returned s

theorem told?_withReturns (cs : List Char) :
    (told? (withReturns cs)).map (List.map Step.relined) =
      (told? cs).map (List.map Step.relined) := by
  have lines := Outline.trimmedLines_withReturns cs
  have brackets : bracketBlocks (withReturns cs) = bracketBlocks cs := by
    rw [bracketBlocks, bracketBlocks, lines]
  have outline : numberedOutline (withReturns cs) = numberedOutline cs := by
    rw [numberedOutline, numberedOutline, lines]
  have roles : roleLines (withReturns cs) = roleLines cs := by
    rw [roleLines, roleLines, lines]
  have same : ∀ told : Option (List Step), (told.map (List.map Step.returned)).map
      (List.map Step.relined) = told.map (List.map Step.relined) := by
    rintro (_ | steps)
    · rfl
    · exact congrArg some (map_relined_returned steps)
  rw [told?, told?, List.map_findSome?, List.map_findSome?, dialects]
  simp only [List.findSome?, Function.comp_apply, brackets, outline, roles, roleBlocks_withReturns,
    plainText_withReturns, same]

end Dialects

end Import

namespace Workspace

section Texts

open Import

theorem drawn_eq {text : String} (prose : '\x7b' ∉ text.toList) :
    (graphOfText text).map Graph.layOut =
      match jsonGraph (Text.trim text.toList), told? (Text.trim text.toList) with
      | .error n, _ => .error (.overlong n)
      | .ok _, none => .error .blankText
      | .ok _, some steps =>
          ((Graph.read (Step.chain steps)).map Graph.layOut).mapError .invalidFlow := by
  have absent : '\x7b' ∉ Text.trim text.toList := fun member =>
    prose (Outline.trim_subset _ member)
  rw [graphOfText, Import.read]
  cases found : jsonGraph (Text.trim text.toList) with
  | error n =>
      simp only
      rfl
  | ok graph =>
      cases graph with
      | some v => exact absurd found (jsonGraph_ne_some absent)
      | none =>
          simp only
          cases told? (Text.trim text.toList) with
          | none => rfl
          | some steps =>
              simp only [Option.map_some]
              cases Graph.read (Step.chain steps) <;> rfl

theorem drawn_withReturns {text : String} (prose : '\x7b' ∉ text.toList) :
    (graphOfText (String.ofList (withReturns text.toList))).map Graph.layOut =
      (graphOfText text).map Graph.layOut := by
  have returned : '\x7b' ∉ (String.ofList (withReturns text.toList)).toList := by
    rwa [String.toList_ofList, Text.mem_withReturns (by decide)]
  have absent : '\x7b' ∉ Text.trim text.toList := fun member =>
    prose (Outline.trim_subset _ member)
  have told := told?_withReturns (Text.trim text.toList)
  rw [drawn_eq prose, drawn_eq returned, String.toList_ofList, Text.trim_withReturns,
    jsonGraph_withReturns absent]
  generalize told? (withReturns (Text.trim text.toList)) = first at told ⊢
  generalize told? (Text.trim text.toList) = second at told ⊢
  cases jsonGraph (Text.trim text.toList) with
  | error n => rfl
  | ok graph =>
      rcases first with _ | steps <;> rcases second with _ | others
      · rfl
      · cases told
      · cases told
      · simp only [drawn_congr (Option.some.inj told)]

/-- The canvases that texts with either ends of lines are imported as differ in the identifiers of
their items only. -/
theorem graphOfText_withReturns {text : String} (prose : '\x7b' ∉ text.toList)
    (ids others : IdSupply) :
    (graphOfText (String.ofList (withReturns text.toList))).map (fun g =>
        let c := (g.layOut.complete others).1
        (c.anonymous, c.nodes.map Canvas.Node.content)) =
      (graphOfText text).map fun g =>
        let c := (g.layOut.complete ids).1
        (c.anonymous, c.nodes.map Canvas.Node.content) := by
  have shown : ∀ (ids : IdSupply) (drawn : Except Failure Graph), (drawn.map fun g =>
      let c := (g.layOut.complete ids).1
      (c.anonymous, c.nodes.map Canvas.Node.content)) =
        (drawn.map Graph.layOut).map fun s =>
          (s.anonymous, s.anonymous.nodes.map Canvas.Node.content) := by
    rintro ids (reason | g)
    · rfl
    · have contents := Canvas.map_completeNodes Canvas.content_anonymous g.layOut.nodes ids
      have blank := Canvas.anonymous_complete g.layOut ids
      simp only [Except.map, blank, Except.ok.injEq, Prod.mk.injEq, true_and]
      rw [Canvas.Sketch.anonymous, List.map_map]
      exact contents
  rw [shown, shown, drawn_withReturns prose]

/-- The returns stay in the content of a role block, and are in no text of its list. -/
theorem graphOfText_withReturns_brief :
    let text := "Then [1] SYSTEM\nBe brief.\nShort."
    let returned := String.ofList (withReturns text.toList)
    '\x7b' ∉ text.toList ∧
    ((graphOfText returned).map fun g => g.nodes.map Graph.Node.content).toOption =
      some ["Be brief.\r\nShort."] ∧
    ((graphOfText returned).map fun g =>
        (g.layOut.complete ⟨0, 0⟩).1.nodes.map Canvas.Node.content).toOption =
      some ["1 Be brief.\n2 Short."] := by
  have prose : '\x7b' ∉ "Then [1] SYSTEM\nBe brief.\nShort.".toList := by decide
  have shown : ∀ drawn : Except Failure Graph, (drawn.map fun g =>
      (g.layOut.complete ⟨0, 0⟩).1.nodes.map Canvas.Node.content) =
        (drawn.map fun g =>
          let c := (g.layOut.complete ⟨0, 0⟩).1
          (c.anonymous, c.nodes.map Canvas.Node.content)).map Prod.snd := by
    rintro (reason | g) <;> rfl
  refine ⟨prose, by decide +kernel, ?_⟩
  rw [shown, graphOfText_withReturns prose ⟨0, 0⟩ ⟨0, 0⟩, ← shown]
  decide +kernel

end Texts

end Workspace

end PromptCanvas
