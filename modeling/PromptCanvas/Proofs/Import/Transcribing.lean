import PromptCanvas.Proofs.Import.BlankBlocks
import PromptCanvas.Proofs.Import.Chain

/-! # Transcripts in role blocks

The prompt of a canvas is a text in role blocks, so that it tells the steps of the transcript again:
each in its order and role, and with its content, or with the mark of an empty one
(`roleBlocks_prompt`).  No body of it is blank, as an empty content is written as a mark, and no
line of a body begins with a bracket, as the lines of a content begin with numbers.  So the texts of
the items may hold what looks like a header. -/

set_option autoImplicit false

namespace PromptCanvas.Import

open Outline (lineText)

section Bodies

variable {n : Canvas.Node}

def written (content : String) : String := if content = "" then "(empty)" else content

def blockOf (n : Canvas.Node) : RoleBlock := ⟨n.role, (written n.content).toList ++ ['\n']⟩

theorem exists_head_lineText {m : List Nat × Entry} (shown : Shown m) :
    ∃ c more, lineText m = c :: more ∧ c.isDigit = true := by
  obtain ⟨d, more, text, digit⟩ := Outline.head_tokenText shown.numbered.parts
  exact ⟨d, _, by rw [lineText, text, List.cons_append], digit⟩

theorem content_cases (unbroken : ∀ item ∈ n.items, '\n' ∉ item.text.toList) :
    shownOf n = [] ∧ n.content = "" ∨
      n.content ≠ "" ∧ ∃ c more, n.content.toList = c :: more ∧ c.isDigit = true := by
  have text := toList_content n
  cases list : shownOf n with
  | nil =>
      rw [list] at text
      exact .inl ⟨rfl, String.toList_inj.mp text⟩
  | cons m ms =>
      have shown := shown_of_unbroken unbroken m (list ▸ List.mem_cons_self)
      obtain ⟨c, more, line, digit⟩ := exists_head_lineText shown
      rw [list, List.map_cons, Text.intercalate_cons, line, List.cons_append] at text
      refine .inr ⟨?_, c, _, text, digit⟩
      rintro empty
      rw [empty] at text
      cases text

theorem isBlank_blockOf (unbroken : ∀ item ∈ n.items, '\n' ∉ item.text.toList) :
    (blockOf n).isBlank = false := by
  rw [RoleBlock.isBlank, blockOf, Text.isBlankText_append, written]
  rcases content_cases unbroken with ⟨-, empty⟩ | ⟨some, c, more, text, digit⟩
  · rw [if_pos empty]
    rfl
  · rw [if_neg some, text, Text.isBlankText, List.all_cons, Text.not_isBlank_of_ascii digit]
    rfl

theorem unbracketed_blockOf (unbroken : ∀ item ∈ n.items, '\n' ∉ item.text.toList) :
    Unbracketed ('\n' :: (blockOf n).body) := by
  have shown := shown_of_unbroken unbroken
  rw [blockOf, written]
  rcases content_cases unbroken with ⟨-, empty⟩ | ⟨some, -⟩
  · have mark : '[' ∉ '\n' :: ("(empty)".toList ++ ['\n']) := by decide
    rw [if_pos empty]
    exact unbracketed_of_not_mem mark
  · have text := toList_content n
    cases list : (shownOf n).map lineText with
    | nil =>
        rw [list] at text
        exact absurd (String.toList_inj.mp text) some
    | cons line lines =>
        have breaks : ∀ l ∈ line :: lines, '\n' ∉ l := by
          rw [← list]
          refine List.forall_mem_map.mpr fun m listed => ?_
          exact Outline.unbroken_lineText (shown m listed).clean
        have heads : ∀ l ∈ line :: lines, ∃ c more, l = c :: more ∧ c ≠ '[' := by
          rw [← list]
          refine List.forall_mem_map.mpr fun m listed => ?_
          obtain ⟨c, more, begins, digit⟩ := exists_head_lineText (shown m listed)
          refine ⟨c, more, begins, ?_⟩
          rintro rfl
          cases digit
        have whole : '\n' :: ((written n.content).toList ++ ['\n']) =
            (line :: lines).flatMap (['\n'] ++ ·) ++ ['\n'] := by
          rw [written, if_neg some, text, list, Text.intercalate_cons]
          rfl
        rw [written, if_neg some] at whole
        rw [if_neg some, whole]
        exact unbracketed_lines breaks heads (unbracketed_of_not_mem (by decide))

theorem step_blockOf (unbroken : ∀ item ∈ n.items, '\n' ∉ item.text.toList) :
    (blockOf n).step = ⟨n.role.name, n.role.label, written n.content⟩ := by
  have trimmed : Text.trim (written n.content).toList = (written n.content).toList := by
    rw [written]
    split
    · decide
    · exact trim_content (shown_of_unbroken unbroken)
  have newline : ∀ c ∈ ['\n'], Text.isBlank c = true :=
    List.forall_mem_singleton.mpr (by decide)
  rw [RoleBlock.step, blockOf, Text.trim_append_of_blank_end newline, trimmed,
    String.ofList_toList]

end Bodies

section Prompts

variable {nodes : List Canvas.Node}

theorem toList_written (k : Nat) (n : Canvas.Node) :
    (Transcript.Step.block ⟨k, n.id, n.role, n.label, n.content⟩).toList ++ ['\n'] =
      (blockOf n).text k := by
  have shown : Transcript.Step.shown ⟨k, n.id, n.role, n.label, n.content⟩ =
      written n.content := by
    simp [Transcript.Step.shown, written]
  rw [Transcript.Step.block, shown]
  simp [RoleBlock.text, blockOf, headerLine, toString, Nat.repr]

theorem toList_promptOf_cons (s t : Transcript.Step) (steps : List Transcript.Step) :
    (Transcript.promptOf (s :: t :: steps)).toList =
      s.block.toList ++ '\n' :: '\n' :: (Transcript.promptOf (t :: steps)).toList := by
  rw [Transcript.promptOf, Transcript.promptOf, String.toList_intercalate,
    String.toList_intercalate, List.map_cons, List.map_cons, List.map_cons, List.map_cons,
    List.intercalate_cons_cons]
  simp

theorem promptOf_blocks (nonempty : nodes ≠ []) (k : Nat) :
    (Transcript.promptOf (Transcript.stepsFrom k nodes)).toList ++ ['\n'] =
      blocksText k (nodes.map blockOf) := by
  induction nodes generalizing k with
  | nil => exact absurd rfl nonempty
  | cons n nodes ih =>
      cases nodes with
      | nil =>
          rw [List.map_singleton, blocksText_single, ← toList_written]
          rfl
      | cons m nodes =>
          have later := ih (List.cons_ne_nil m nodes) (k + 1)
          rw [Transcript.stepsFrom] at later ⊢
          rw [Transcript.stepsFrom, toList_promptOf_cons, List.append_assoc, List.cons_append,
            List.cons_append, later, List.map_cons, List.map_cons, List.map_cons,
            blocksText_cons_cons, ← toList_written, List.append_assoc]
          rfl

/-- The prompt of a canvas tells the steps of its transcript, each with its role and its content or
the mark of an empty one, as nodes that are numbered and linked in order. -/
theorem roleBlocks_prompt (nonempty : nodes ≠ [])
    (unbroken : ∀ n ∈ nodes, ∀ item ∈ n.items, '\n' ∉ item.text.toList)
    (edges : List Canvas.Edge) :
    ∃ j js, (roleBlocks (Transcript.of nodes edges).prompt.toList).map Step.chain = some j ∧
      IsChain j js ∧
      js.map (fun n => (n.field "role", n.field "label", n.field "content")) =
        (Transcript.of nodes edges).steps.map fun s => (.string s.role.name, .string s.role.label,
          .string (if s.content = "" then "(empty)" else s.content)) := by
  have visited := Canvas.walk_perm nodes edges
  have walked : Canvas.walk nodes edges ≠ [] := fun none => nonempty (by
    rw [none] at visited
    exact visited.symm.eq_nil)
  have each : ∀ n ∈ Canvas.walk nodes edges, ∀ item ∈ n.items, '\n' ∉ item.text.toList :=
    fun n member => unbroken n (visited.mem_iff.mp member)
  obtain ⟨listed, prompt⟩ := of_steps nonempty edges
  have blocks : (Canvas.walk nodes edges).map blockOf ≠ [] := by simpa using walked
  have found : roleBlocks (Transcript.of nodes edges).prompt.toList =
      some ((Canvas.walk nodes edges).map fun n => (blockOf n).step) := by
    have newline : ∀ c ∈ ['\n'], Text.isBlank c = true :=
      List.forall_mem_singleton.mpr (by decide)
    have told := roleBlocks_of_solid blocks
      (List.forall_mem_map.mpr fun n member => isBlank_blockOf (each n member))
      (List.forall_mem_map.mpr fun n member => unbracketed_blockOf (each n member))
    rw [← promptOf_blocks walked 1, ← prompt, roleBlocks, Text.trim_append_of_blank_end newline,
      ← roleBlocks, List.map_map] at told
    exact told
  refine ⟨_, _, by rw [found, Option.map_some], isChain_chain (told_of_roleBlocks found), ?_⟩
  have tells : (Canvas.walk nodes edges).map (fun n => (blockOf n).step) =
      (Canvas.walk nodes edges).map fun n => ⟨n.role.name, n.role.label, written n.content⟩ :=
    List.map_congr_left fun n member => step_blockOf (each n member)
  have fields : ∀ steps : List Step, (Step.nodesFrom 1 steps).map
      (fun n => (n.field "role", n.field "label", n.field "content")) =
        steps.map fun s => (.string s.role, .string s.label, .string s.content) := fun steps =>
    Step.map_nodesFrom (fun _ _ => rfl) steps 1
  have kept : (Transcript.stepsFrom 1 (Canvas.walk nodes edges)).map (fun s =>
      (Json.string s.role.name, Json.string s.role.label, Json.string (written s.content))) =
        (Canvas.walk nodes edges).map fun n =>
          (.string n.role.name, .string n.role.label, .string (written n.content)) :=
    Transcript.map_stepsFrom (fun _ _ => rfl) _ 1
  rw [fields, tells, List.map_map, listed]
  exact kept.symm

def asking : List Canvas.Node :=
  [⟨"a", .user, "Ask", [⟨⟨"[3] USER", .one⟩, "i"⟩, ⟨⟨"[4] SYSTEM", .two⟩, "j"⟩], .origin⟩,
    ⟨"b", .condition, "If", [], .origin⟩]

theorem roleBlocks_prompt_asking :
    (asking ≠ [] ∧ ∀ n ∈ asking, ∀ item ∈ n.items, '\n' ∉ item.text.toList) ∧
    ∃ j js, (roleBlocks (Transcript.of asking [⟨"e", "a", "b"⟩]).prompt.toList).map Step.chain =
        some j ∧ IsChain j js ∧
      js.map (fun n => (n.field "role", n.field "content")) =
        [(.string "user", .string "1 [3] USER\n1.1 [4] SYSTEM"),
          (.string "condition", .string "(empty)")] := by
  have unbroken : ∀ n ∈ asking, ∀ item ∈ n.items, '\n' ∉ item.text.toList := by decide
  have some : asking ≠ [] := List.cons_ne_nil _ _
  refine ⟨⟨some, unbroken⟩, ?_⟩
  obtain ⟨j, js, found, chain, fields⟩ := roleBlocks_prompt some unbroken [⟨"e", "a", "b"⟩]
  refine ⟨j, js, found, chain, ?_⟩
  have walked : Canvas.walk asking [⟨"e", "a", "b"⟩] = asking :=
    Canvas.walk_linked (by decide) (by decide)
  have steps : Transcript.stepsFrom 1 asking =
      [⟨1, "a", .user, "Ask", "1 [3] USER\n1.1 [4] SYSTEM"⟩, ⟨2, "b", .condition, "If", ""⟩] := by
    decide +kernel
  have shown := congrArg (List.map fun f : Json × Json × Json => (f.1, f.2.2)) fields
  rw [(of_steps some _).1, walked, steps, List.map_map] at shown
  exact shown

end Prompts

end PromptCanvas.Import
