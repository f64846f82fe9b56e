import PromptCanvas.Canvas.Transcript
import PromptCanvas.Proofs.Canvas.Storage
import PromptCanvas.Proofs.Import.Brackets
import PromptCanvas.Proofs.Import.Prose
import PromptCanvas.Proofs.Outline.TrimmedLines
import PromptCanvas.Proofs.Text.Lines

/-! # Prompts that are imported

The prompt of a canvas is written in blocks with bracketed headers, so that it is imported in the
dialect of bracketed blocks: as one step for every step of the transcript, in order and in its role.
The contents are not those of the transcript.  A step's content is its numbered list, and the
dialect takes from such a list the lines whose numbers open a child of the block
(`read_prompt`). -/

set_option autoImplicit false

namespace PromptCanvas

namespace Import

open Outline (lineText tokenText trimmedLines trimmedLines_append trimmedLines_single shownFrom)
open Text (SolidHead SolidLast)

section Places

theorem exists_of_mem_zip_mapIdx {α β γ : Type} {f : Nat → α → β} {g : Nat → α → γ}
    {as : List α} {pair : β × γ} (member : pair ∈ (as.mapIdx f).zip (as.mapIdx g)) :
    ∃ i, ∃ a ∈ as, f i a = pair.1 ∧ g i a = pair.2 := by
  obtain ⟨i, place⟩ := List.mem_iff_getElem?.mp member
  obtain ⟨first, second⟩ := List.getElem?_zip_eq_some.mp place
  rw [List.getElem?_mapIdx] at first second
  obtain ⟨a, here, left⟩ := Option.map_eq_some_iff.mp first
  obtain ⟨b, there, right⟩ := Option.map_eq_some_iff.mp second
  obtain rfl := Option.some.inj (here.symm.trans there)
  exact ⟨i, a, List.mem_of_getElem? here, left, right⟩

end Places

section Blocks

variable {k : Nat} {n : Canvas.Node}

def shownOf (n : Canvas.Node) : List (List Nat × Entry) :=
  shownFrom .start (n.items.map Item.toEntry)

/-- A node whose prompt can be imported in blocks. -/
structure Plain (n : Canvas.Node) : Prop where
  exported : n.role.isExported = true
  content : Text.isBlankString n.content = false
  unbroken : ∀ item ∈ n.items, '\n' ∉ item.text.toList
  unbraced : ∀ item ∈ n.items, '\x7b' ∉ item.text.toList

theorem shown_of_unbroken (unbroken : ∀ item ∈ n.items, '\n' ∉ item.text.toList) :
    ∀ m ∈ shownOf n, Shown m := by
  intro m member
  have entry : m.2 ∈ (n.items.map Item.toEntry).filter Outline.shows := by
    rw [← Outline.map_snd_shownFrom .start]
    exact List.mem_map_of_mem member
  obtain ⟨listed, shows⟩ := List.mem_filter.mp entry
  obtain ⟨item, inside, same⟩ := List.mem_map.mp listed
  refine ⟨Outline.numbered_shownFrom .start _ m member, ?_, ?_⟩
  · rw [← same]
    exact unbroken item inside
  · rw [ne_eq, ← Text.isBlankText_iff]
    simpa [Outline.shows, Text.isBlankString] using shows

theorem Plain.shown (plain : Plain n) : ∀ m ∈ shownOf n, Shown m :=
  shown_of_unbroken plain.unbroken

theorem toList_content (n : Canvas.Node) :
    n.content.toList = List.intercalate ['\n'] ((shownOf n).map lineText) := String.toList_ofList

theorem trim_content (shown : ∀ m ∈ shownOf n, Shown m) :
    Text.trim n.content.toList = n.content.toList := by
  rw [toList_content]
  refine Text.trim_intercalate (fun line member => ?_) fun line member => ?_
  all_goals obtain ⟨m, listed, rfl⟩ := List.mem_map.mp member
  · exact Outline.trim_lineText (shown m listed).numbered (shown m listed).clean
  · exact Outline.lineText_ne_nil m

theorem Plain.some (plain : Plain n) : shownOf n ≠ [] := by
  intro none
  have text := toList_content n
  have solid := plain.content
  rw [none] at text
  rw [Text.isBlankString, text] at solid
  cases solid

theorem Plain.trimmedLines_content (plain : Plain n) :
    trimmedLines n.content.toList = (shownOf n).map lineText := by
  rw [toList_content]
  exact Outline.trimmedLines_joined plain.some (fun m member => (plain.shown m member).numbered)
    fun m member => (plain.shown m member).clean

def blockText (k : Nat) (n : Canvas.Node) : List Char :=
  headerLine k n.role ++ '\n' :: n.content.toList

theorem toList_block (content : n.content ≠ "") :
    (Transcript.Step.block ⟨k, n.id, n.role, n.label, n.content⟩).toList = blockText k n := by
  have shown : Transcript.Step.shown ⟨k, n.id, n.role, n.label, n.content⟩ = n.content := by
    rw [Transcript.Step.shown, if_neg (by simpa using content)]
  rw [Transcript.Step.block, shown]
  simp [blockText, headerLine, toString, Nat.repr]

theorem trim_headerLine (k : Nat) (r : Role) : Text.trim (headerLine k r) = headerLine k r := by
  have head : SolidHead ('[' :: (Nat.toDigits 10 k ++ [']', ' '])) := by
    rintro c ⟨⟩
    decide
  have last : SolidLast r.heading.toList := by
    cases r <;> (rintro c ⟨⟩; decide)
  have word : r.heading.toList ≠ [] := by
    cases r <;> exact List.cons_ne_nil _ _
  have shape : headerLine k r = ('[' :: (Nat.toDigits 10 k ++ [']', ' '])) ++ r.heading.toList := by
    simp [headerLine]
  rw [shape]
  exact Text.trim_eq_append head last (List.cons_ne_nil _ _) word

/-- A header holds brackets, a blank, and the characters of its number and its word. -/
theorem not_mem_headerLine {c : Char} (noDigit : c.isDigit = false)
    (other : ∀ r : Role, c ∉ "[] ".toList ++ r.heading.toList) (r : Role) :
    c ∉ headerLine k r := by
  have digits : c ∉ Nat.toDigits 10 k := by
    intro member
    have digit := List.all_eq_true.mp (Numeral.all_isDigit_toDigits k) c member
    rw [noDigit] at digit
    cases digit
  have apart := other r
  simp only [headerLine, List.mem_cons, List.mem_append, digits, not_or] at apart ⊢
  simp_all

theorem Plain.trimmedLines_blockText (plain : Plain n) :
    trimmedLines (blockText k n) = headerLine k n.role :: (shownOf n).map lineText := by
  have unbroken : '\n' ∉ headerLine k n.role :=
    not_mem_headerLine (by decide) (by intro r; cases r <;> decide) n.role
  rw [blockText, trimmedLines_append, plain.trimmedLines_content,
    trimmedLines_single unbroken (trim_headerLine k n.role) (List.cons_ne_nil _ _)]
  rfl

theorem Plain.trim_blockText (plain : Plain n) : Text.trim (blockText k n) = blockText k n := by
  have visible : ∀ line ∈ (shownOf n).map lineText, line ≠ [] := by
    intro line member
    obtain ⟨m, -, rfl⟩ := List.mem_map.mp member
    exact Outline.lineText_ne_nil m
  have last : SolidLast n.content.toList :=
    ((Text.trim_eq_self_iff _).mp (trim_content plain.shown)).2
  have nonempty : n.content.toList ≠ [] := by
    rw [toList_content]
    exact Text.intercalate_ne_nil visible (by simpa using plain.some)
  rw [blockText, ← List.singleton_append, ← List.append_assoc]
  refine Text.trim_eq_append ?_ last (List.cons_ne_nil _ _) nonempty
  rintro c ⟨⟩
  decide

theorem Plain.unbraced_blockText (plain : Plain n) : '\x7b' ∉ blockText k n := by
  have header : '\x7b' ∉ headerLine k n.role :=
    not_mem_headerLine (by decide) (by intro r; cases r <;> decide) n.role
  have content : '\x7b' ∉ n.content.toList := by
    rw [toList_content]
    refine Text.not_mem_intercalate (by decide) fun line member => ?_
    obtain ⟨m, listed, rfl⟩ := List.mem_map.mp member
    have entry : m.2 ∈ n.items.map Item.toEntry :=
      Outline.mem_of_mem_numberFrom (List.mem_filter.mp listed).1
    obtain ⟨item, inside, same⟩ := List.mem_map.mp entry
    rw [lineText, List.mem_append, List.mem_cons]
    rintro (number | blank | text)
    · rcases Outline.mem_tokenText number with digit | point
      · cases digit
      · cases point
    · cases blank
    · refine plain.unbraced item inside (Outline.trim_subset _ ?_)
      rw [← same] at text
      exact text
  simp [blockText, header, content]

end Blocks

section Prompts

variable {nodes : List Canvas.Node} (plain : ∀ n ∈ nodes, Plain n)

include plain

theorem Plain.forall_mem_mapIdx {k : Nat} {p : List Char → Prop}
    (holds : ∀ k n, Plain n → p (blockText k n)) :
    ∀ text ∈ nodes.mapIdx fun i n => blockText (k + i) n, p text := by
  intro text member
  obtain ⟨i, inside, rfl⟩ := List.mem_mapIdx.mp member
  exact holds _ _ (plain _ (List.getElem_mem inside))

theorem toList_promptOf (k : Nat) :
    (Transcript.promptOf (Transcript.stepsFrom k nodes)).toList =
      List.intercalate ['\n', '\n'] (nodes.mapIdx fun i n => blockText (k + i) n) := by
  have blocks : ∀ k, ((Transcript.stepsFrom k nodes).map Transcript.Step.block).map String.toList =
      nodes.mapIdx fun i n => blockText (k + i) n := by
    induction nodes with
    | nil => intro k; rfl
    | cons n nodes ih =>
        intro k
        obtain ⟨first, others⟩ := List.forall_mem_cons.mp plain
        have content : n.content ≠ "" := by
          intro empty
          have solid := first.content
          rw [empty] at solid
          cases solid
        have later := ih others (k + 1)
        simp only [Nat.add_assoc, Nat.add_comm 1] at later
        rw [Transcript.stepsFrom, List.map_cons, List.map_cons, toList_block content, later,
          List.mapIdx_cons]
        rfl
  rw [Transcript.promptOf, String.toList_intercalate, blocks]
  rfl

theorem trimmedLines_promptOf (k : Nat) :
    trimmedLines (Transcript.promptOf (Transcript.stepsFrom k nodes)).toList =
      (nodes.mapIdx fun i n => headerLine (k + i) n.role :: (shownOf n).map lineText).flatten := by
  have breaks : ∀ front back, trimmedLines (front ++ (['\n', '\n'] ++ back)) =
      trimmedLines front ++ trimmedLines back := fun front back =>
    (trimmedLines_append front ('\n' :: back)).trans
      (congrArg (trimmedLines front ++ ·) (trimmedLines_append [] back))
  rw [toList_promptOf plain, Outline.trimmedLines_intercalate breaks, List.flatMap_def, map_mapIdx]
  congr 1
  rw [List.mapIdx_eq_mapIdx_iff]
  intro i inside
  exact (plain _ (List.getElem_mem inside)).trimmedLines_blockText

theorem bracketBlocks_promptOf (nonempty : nodes ≠ []) (k : Nat) :
    bracketBlocks (Transcript.promptOf (Transcript.stepsFrom k nodes)).toList =
      some (nodes.mapIdx fun i n => stepOf n.role.heading.toList
        (Block.content ⟨Nat.toDigits 10 (k + i), n.role.heading.toList,
          gather (k + i) (shownOf n)⟩)) := by
  have blocks := blocksFrom_lists Canvas.Node.role shownOf
    (fun n member => (plain n member).exported) (fun n member => (plain n member).shown) k none
  rw [← trimmedLines_promptOf plain, Option.toList_none, List.nil_append] at blocks
  obtain ⟨n, more, rfl⟩ := List.exists_cons_of_ne_nil nonempty
  rw [bracketBlocks, blocks, List.mapIdx_cons, List.mapIdx_cons]
  simp only [List.map_cons, map_mapIdx]

theorem read_promptOf (nonempty : nodes ≠ []) :
    let prompt := Transcript.promptOf (Transcript.stepsFrom 1 nodes)
    read prompt = (Document.fencedOutcome prompt.toList).map fun _ =>
      (bracketBlocks prompt.toList).map Step.chain := by
  intro prompt
  have text : prompt.toList = _ := toList_promptOf plain 1
  have trimmed : Text.trim prompt.toList = prompt.toList := by
    rw [text]
    exact Text.trim_intercalate (Plain.forall_mem_mapIdx plain fun k n plain => plain.trim_blockText)
      (Plain.forall_mem_mapIdx plain fun k n _ => by simp [blockText])
  have unbraced : '\x7b' ∉ prompt.toList := by
    rw [text]
    exact Text.not_mem_intercalate (by decide)
      (Plain.forall_mem_mapIdx plain fun k n plain => plain.unbraced_blockText)
  obtain ⟨more, begins, some⟩ : ∃ more, prompt.toList = "[1]".toList ++ more ∧ more ≠ [] := by
    obtain ⟨n, others, rfl⟩ := List.exists_cons_of_ne_nil nonempty
    rw [text, List.mapIdx_cons, Text.intercalate_cons]
    exact ⟨_, rfl, List.cons_ne_nil _ _⟩
  have found := bracketBlocks_promptOf plain nonempty 1
  rw [read_of_header (trimmed.trans begins) some unbraced, trimmed, told?_of_bracketBlocks found,
    found]

end Prompts

section Contents

/-- The number of a line is neither the first word of a block without children nor the mark of
its first child. -/
theorem tokenText_ne {token : List Nat} (parts : token ≠ []) :
    tokenText token ≠ "No".toList ∧ tokenText token ≠ "1.".toList := by
  constructor
  · obtain ⟨d, more, text, digit⟩ := Outline.head_tokenText parts
    rw [text]
    rintro ⟨⟩
    cases digit
  · obtain ⟨m, ns, rfl⟩ := List.exists_cons_of_ne_nil parts
    intro same
    by_cases last : ns = []
    · rw [last, Outline.tokenText_single] at same
      have digit := List.all_eq_true.mp (Numeral.all_isDigit_toDigits m) '.' (by simp [same])
      cases digit
    · obtain ⟨d, more, text, -⟩ := Outline.head_tokenText last
      obtain ⟨c, ds, digits, -, -⟩ := Numeral.toDigits_eq_cons (n := m)
      have length := congrArg List.length same
      rw [Outline.tokenText_cons m ns last, text, digits] at length
      simp at length
      omega

theorem exists_content (b : Block) : ∃ word ∈ ["No".toList, "1.".toList], ∃ back,
    b.content = word ++ ' ' :: back := by
  obtain ⟨number, role, children⟩ := b
  cases children with
  | nil => exact ⟨"No".toList, List.mem_cons_self, "content".toList, rfl⟩
  | cons child children =>
      refine ⟨"1.".toList, by simp, child ++ (numberedChildren 2 children).flatMap (['\n'] ++ ·), ?_⟩
      exact (Text.intercalate_cons ..).trans (List.append_assoc ..)

variable {n : Canvas.Node}

theorem Plain.exists_token (plain : Plain n) : ∃ token ≠ [], ∃ back,
    n.content.toList = tokenText token ++ ' ' :: back := by
  obtain ⟨m, ms, first⟩ := List.exists_cons_of_ne_nil plain.some
  have shown := plain.shown m (first ▸ List.mem_cons_self)
  refine ⟨m.1, shown.numbered.parts,
    Text.trim m.2.text.toList ++ (ms.map lineText).flatMap (['\n'] ++ ·), ?_⟩
  rw [toList_content, first, List.map_cons, Text.intercalate_cons, lineText, List.append_assoc,
    List.cons_append]

/-- A list is not imported as what it was. -/
theorem Plain.content_ne (plain : Plain n) (b : Block) : String.ofList b.content ≠ n.content := by
  intro same
  obtain ⟨word, listed, back, begins⟩ := exists_content b
  obtain ⟨token, parts, rest, text⟩ := plain.exists_token
  obtain ⟨noWord, noMark⟩ := tokenText_ne parts
  rw [← same, String.toList_ofList, begins] at text
  have cut : ∀ (front back : List Char), ' ' ∉ front →
      (front ++ ' ' :: back).takeWhile (· != ' ') = front := by
    intro front back solid
    rw [List.takeWhile_append_of_pos, List.takeWhile_cons_of_neg (by decide), List.append_nil]
    intro c member
    rw [bne_iff_ne]
    rintro rfl
    exact solid member
  have solid : ' ' ∉ tokenText token := by
    intro member
    rcases Outline.mem_tokenText member with digit | point
    · cases digit
    · cases point
  have words := congrArg (List.takeWhile (· != ' ')) text
  rw [cut _ _ solid] at words
  simp only [List.mem_cons, List.not_mem_nil, or_false] at listed
  rcases listed with rfl | rfl
  · exact noWord words.symm
  · exact noMark words.symm

end Contents

section Retelling

variable {nodes : List Canvas.Node}

/-- What the `k`th step of a transcript is imported as. -/
def retold (k : Nat) (n : Canvas.Node) : Step :=
  ⟨n.role.name, n.role.label, String.ofList
    (Block.content ⟨Nat.toDigits 10 k, n.role.heading.toList, gather k (shownOf n)⟩)⟩

theorem stepOf_heading (r : Role) (content : List Char) :
    stepOf r.heading.toList content = ⟨r.name, r.label, String.ofList content⟩ := by
  cases r <;> rfl

theorem of_steps (nonempty : nodes ≠ []) (edges : List Canvas.Edge) :
    (Transcript.of nodes edges).steps = Transcript.stepsFrom 1 (Canvas.walk nodes edges) ∧
      (Transcript.of nodes edges).prompt =
        Transcript.promptOf (Transcript.stepsFrom 1 (Canvas.walk nodes edges)) := by
  rw [Transcript.of, if_neg (by simpa using nonempty)]
  exact ⟨rfl, rfl⟩

theorem stepsFrom_eq (nodes : List Canvas.Node) : ∀ k, Transcript.stepsFrom k nodes =
    nodes.mapIdx fun i n => ⟨k + i, n.id, n.role, n.label, n.content⟩ := by
  induction nodes with
  | nil => intro k; rfl
  | cons n nodes ih =>
      intro k
      have later := ih (k + 1)
      simp only [Nat.add_assoc, Nat.add_comm 1] at later
      rw [Transcript.stepsFrom, later, List.mapIdx_cons]
      rfl

/-- A prompt is imported as one step for each step of the transcript, in order and in its role,
with what a block of its number gathers of its list.  That is never the content of the step. -/
theorem read_prompt (plain : ∀ n ∈ nodes, Plain n) (edges : List Canvas.Edge) :
    let prompt := (Transcript.of nodes edges).prompt
    let steps := (Canvas.walk nodes edges).mapIdx fun i n => retold (i + 1) n
    (∀ found, Document.fencedOutcome prompt.toList = .ok found →
      read prompt = .ok (if nodes.isEmpty then none else some (Step.chain steps))) ∧
    (∀ n, Document.fencedOutcome prompt.toList = .error n → n.StandsIn prompt.toList) ∧
    steps.map Step.role = (Transcript.of nodes edges).steps.map (fun s => s.role.name) ∧
    ∀ pair ∈ steps.zip (Transcript.of nodes edges).steps, pair.1.content ≠ pair.2.content := by
  intro prompt steps
  have visited := Canvas.walk_perm nodes edges
  by_cases nonempty : nodes = []
  · have none : Canvas.walk nodes edges = [] := by
      rw [nonempty] at visited ⊢
      exact visited.eq_nil
    have nothing : steps = [] := congrArg (List.mapIdx fun i n => retold (i + 1) n) none
    have text : prompt = "" := by
      subst nonempty
      rfl
    have refused : read "" = .ok .none := rfl
    rw [nothing, text, nonempty]
    exact ⟨fun _ _ => refused, fun n => Document.stands_of_fencedOutcome, rfl, nofun⟩
  · have walked : Canvas.walk nodes edges ≠ [] := fun none => nonempty (by
      rw [none] at visited
      exact visited.symm.eq_nil)
    have each : ∀ n ∈ Canvas.walk nodes edges, Plain n := fun n member =>
      plain n (visited.mem_iff.mp member)
    obtain ⟨listed, text⟩ : _ ∧ prompt = _ := of_steps nonempty edges
    refine ⟨fun found extracted => ?_, fun n => Document.stands_of_fencedOutcome, ?_, ?_⟩
    · rw [text] at extracted
      rw [if_neg (by simpa using nonempty), text, read_promptOf each walked, extracted,
        bracketBlocks_promptOf each walked, Option.map_some]
      simp only [stepOf_heading, Nat.add_comm 1]
      rfl
    · rw [listed, stepsFrom_eq, map_mapIdx, map_mapIdx]
      rfl
    · intro pair member
      rw [listed, stepsFrom_eq] at member
      obtain ⟨i, n, visit, told, shown⟩ := exists_of_mem_zip_mapIdx member
      rw [← told, ← shown]
      exact (each n visit).content_ne _

theorem walk_single (n : Canvas.Node) (edges : List Canvas.Edge) : Canvas.walk [n] edges = [n] :=
  List.perm_singleton.mp (Canvas.walk_perm [n] edges)

def ruling (items : List Item) : Canvas.Node := ⟨"n", .system, "Rules", items, .origin⟩

def rules : Canvas.Node :=
  ruling [⟨⟨"Be brief.", .one⟩, "a"⟩, ⟨⟨"No lists.", .two⟩, "b"⟩, ⟨⟨"Ever.", .three⟩, "c"⟩,
    ⟨⟨"Be kind.", .one⟩, "d"⟩]

theorem read_prompt_rules : Plain rules ∧
    (∃ found, Document.fencedOutcome (Transcript.of [rules] []).prompt.toList = .ok found) ∧
    read (Transcript.of [rules] []).prompt =
      .ok (some (Step.chain [⟨"system", "System", "1. No lists. 1.1.1 Ever. 2 Be kind."⟩])) := by
  have plain : Plain rules := ⟨rfl, by decide +kernel, by decide, by decide⟩
  have short : (Transcript.of [rules] []).prompt.toList.length ≤ Json.digitLimit := by
    rw [(of_steps (List.cons_ne_nil _ _) []).2, walk_single]
    decide +kernel
  obtain ⟨other, extracted⟩ := Document.exists_fencedOutcome_of_short short
  have found := (read_prompt (List.forall_mem_singleton.mpr plain) []).1 other extracted
  have retelling : retold 1 rules = ⟨"system", "System", "1. No lists. 1.1.1 Ever. 2 Be kind."⟩ := by
    decide +kernel
  rw [walk_single] at found
  refine ⟨plain, ⟨other, extracted⟩, found.trans ?_⟩
  rw [← retelling]
  rfl

def rule : Canvas.Node := ruling [⟨⟨"Be brief.", .one⟩, "a"⟩]

/-- Nothing of the rule is imported. -/
theorem read_rule : Plain rule ∧
    (Transcript.of [rule] []).steps.map (fun s => (s.role, s.content)) =
      [(.system, "1 Be brief.")] ∧
    read (Transcript.of [rule] []).prompt =
      .ok (some (Step.chain [⟨"system", "System", "No content"⟩])) := by
  have prompt : (Transcript.of [rule] []).prompt = "[1] SYSTEM\n1 Be brief." := by
    rw [(of_steps (List.cons_ne_nil _ _) []).2, walk_single]
    decide +kernel
  have trimmed : Text.trim "[1] SYSTEM\n1 Be brief.".toList = "[1] SYSTEM\n1 Be brief.".toList := by
    decide +kernel
  have prose : (jsonGraph "[1] SYSTEM\n1 Be brief.".toList).toOption.map Option.isNone =
      some true := by
    decide +kernel
  have told : bracketBlocks "[1] SYSTEM\n1 Be brief.".toList =
      some [⟨"system", "System", "No content"⟩] := by
    decide +kernel
  refine ⟨⟨rfl, by decide +kernel, by decide, by decide⟩, ?_, ?_⟩
  · rw [(of_steps (List.cons_ne_nil _ _) []).1, walk_single]
    decide +kernel
  · rw [prompt, read, trimmed]
    simp only [Document.eq_ok_none_of_isNone prose, told?_of_bracketBlocks told, Option.map_some]

end Retelling

end Import

end PromptCanvas
