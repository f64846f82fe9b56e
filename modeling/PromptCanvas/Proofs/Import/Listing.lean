import PromptCanvas.Proofs.Graph.LaidOut
import PromptCanvas.Proofs.Import.Brackets
import PromptCanvas.Proofs.Import.Chain
import PromptCanvas.Proofs.Import.Prose
import PromptCanvas.Proofs.Outline.TrimmedLines

/-! # Listings in brackets

A text of headers in brackets, each with numbered children below it, is imported as one step for
each header, and the list of the step holds the children as they are written (`read_listings`).
What the children look like does not matter: a line belongs to the block that is open as soon as it
begins with the number of the block and a number of its own. -/

set_option autoImplicit false

namespace PromptCanvas.Import

open Outline (IsGap IsLine Spaced trimmedLines)
open Text (SolidHead SolidLast)

/-- A child as it is written: the blanks behind its number, and a text that fills its line. -/
structure Child where
  gap : List Char
  text : List Char
  isGap : IsGap gap
  parted : gap ≠ []
  isLine : IsLine text
  unbraced : '\x7b' ∉ text

/-- A header with its children: the word for the role in any case, and the blanks before it. -/
structure Listing where
  role : Role
  gap : List Char
  word : List Char
  children : List Child
  exported : role.isExported = true
  isGap : IsGap gap
  spelled : word.map Char.toLower = role.name.toList

namespace Listing

section Writing

def header (i : Nat) (l : Listing) : List Char :=
  '[' :: (Nat.toDigits 10 i ++ ']' :: (l.gap ++ l.word))

def childLine (i k : Nat) (c : Child) : List Char :=
  Nat.toDigits 10 i ++ '.' :: (Nat.toDigits 10 k ++ (c.gap ++ c.text))

def childLines (i : Nat) (l : Listing) : List (List Char) :=
  l.children.mapIdx fun k c => childLine i (k + 1) c

def lines (listings : List Listing) : List (List Char) :=
  (listings.mapIdx fun i l => l.header (i + 1) :: l.childLines (i + 1)).flatten

end Writing

section Meaning

def numberedLine (k : Nat) (c : Child) : List Char := Nat.toDigits 10 k ++ '.' :: ' ' :: c.text

def content (l : Listing) : List Char :=
  match l.children with
  | [] => "No content".toList
  | children => List.intercalate ['\n'] (children.mapIdx fun k c => numberedLine (k + 1) c)

def step (l : Listing) : Step := ⟨l.role.name, l.role.label, String.ofList l.content⟩

def entries (l : Listing) : List Entry :=
  match l.children with
  | [] => [⟨"No content", .one⟩]
  | children => children.map fun c => ⟨String.ofList c.text, .one⟩

end Meaning

section Words

variable (l : Listing)

theorem plain_word : ∀ c ∈ l.word, c ∉ Text.foreignLetters := by
  intro c member foreign
  have lower : c.toLower ∈ l.role.name.toList := by
    rw [← l.spelled]
    exact List.mem_map_of_mem member
  have apart : ∀ r : Role,
      (Text.foreignLetters.any fun d => r.name.toList.contains d.toLower) = false := by
    intro r
    cases r <;> decide
  exact List.any_eq_false.mp (apart l.role) c foreign (List.contains_iff_mem.mpr lower)

theorem lower_word : Text.lower l.word = l.role.name.toList := by
  rw [← l.spelled, Text.lower, List.map_eq_flatMap]
  refine List.flatMap_congr fun c member => ?_
  have other := l.plain_word c member
  simp only [Text.foreignLetters, List.mem_cons, List.not_mem_nil, or_false, not_or] at other
  rw [if_neg other.2.1]

theorem map_fold_word : l.word.map Text.fold = l.role.name.toList := by
  rw [← Text.lower_eq_map_fold l.plain_word, l.lower_word]

theorem visible_word : ∀ c ∈ l.word, Text.isBlank c = false := by
  intro c member
  have folded : Text.fold c ∈ l.role.name.toList := by
    rw [← l.map_fold_word]
    exact List.mem_map_of_mem member
  have visible : ∀ r : Role, r.name.toList.any Text.isBlank = false := by
    intro r
    cases r <;> decide
  by_contra blank
  rw [Bool.not_eq_false] at blank
  have same := Text.fold_of_isBlank blank
  exact List.any_eq_false.mp (visible l.role) c (same ▸ folded) blank

theorem word_ne_nil : l.word ≠ [] := by
  intro none
  have spelled := l.spelled
  rw [none] at spelled
  cases role : l.role <;> rw [role] at spelled <;> cases spelled

theorem oneOf?_word : Text.oneOf? exportedWords l.word = some (l.word, []) := by
  have named : l.role.name.toList ∈ exportedWords := by
    have exported := l.exported
    cases role : l.role with
    | condition =>
        rw [role] at exported
        cases exported
    | _ => decide
  have apart : ∀ r : Role, ∀ word ∈ exportedWords, word <+: r.name.toList →
      word = r.name.toList := by
    intro r
    cases r <;> decide
  rw [← l.map_fold_word] at named
  exact Text.oneOf?_of_fold named (l.map_fold_word ▸ apart l.role)

theorem stepOf_word (content : List Char) :
    stepOf l.word content = ⟨l.role.name, l.role.label, String.ofList content⟩ := by
  rw [stepOf, l.lower_word]
  cases l.role <;> rfl

theorem blockHeader?_header (i : Nat) :
    blockHeader? (l.header i) = some ⟨Nat.toDigits 10 i, l.word, []⟩ := by
  have solid : SolidHead l.word := fun c head => l.visible_word c (List.mem_of_mem_head? head)
  rw [blockHeader?, header, bracketed?_append i l.isGap.1 solid, l.oneOf?_word, Option.map_some]
  rfl

end Words

section Children

theorem blockHeader?_childLine (i k : Nat) (c : Child) : blockHeader? (childLine i k c) = none := by
  obtain ⟨d, ds, digits, digit, -⟩ := Numeral.toDigits_eq_cons (n := i)
  refine blockHeader?_of_head ?_
  rw [childLine, digits]
  rintro e ⟨⟩ rfl
  cases digit

/-- A line with the number of the block and a number of its own is a child. -/
theorem childText?_childLine (i k : Nat) (c : Child) :
    childText? (Nat.toDigits 10 i) (childLine i k c) = some c.text := by
  have found : (Nat.toDigits 10 i ++ ['.']).isPrefixOf? (childLine i k c) =
      some (Nat.toDigits 10 k ++ (c.gap ++ c.text)) :=
    List.isPrefixOf?_eq_some_iff_append_eq.mpr (by simp [childLine])
  obtain ⟨b, gap, parted⟩ := List.exists_cons_of_ne_nil c.parted
  obtain ⟨d, ds, digits, -, -⟩ := Numeral.toDigits_eq_cons (n := k)
  obtain ⟨t, text, some⟩ := List.exists_cons_of_ne_nil c.isLine.nonempty
  have blank : Text.isBlank b = true := c.isGap.1 b (parted ▸ List.mem_cons_self)
  have number := span_isDigit (n := k) (Text.not_isDigit_of_isBlank blank) (gap ++ c.text)
  have rest := Outline.span_append_of_blank c.isGap.1
    ((Text.trim_eq_self_iff _).mp c.isLine.trimmed).1
  rw [← List.cons_append, ← parted] at number
  rw [childText?, found]
  simp only [number]
  rw [digits]
  simp only [rest]
  rw [parted]
  simp only [some]
  rw [← some, c.isLine.trimmed]

theorem foldl_addLine (i : Nat) (word : List Char) (children : List Child) :
    ∀ (k : Nat) (front : List (List Char)),
      (children.mapIdx fun j c => childLine i (k + j) c).foldl Block.addLine
        ⟨Nat.toDigits 10 i, word, front⟩ =
          ⟨Nat.toDigits 10 i, word, front ++ children.map Child.text⟩ := by
  induction children with
  | nil => intro k front; rw [List.map_nil, List.append_nil]; rfl
  | cons c children ih =>
      intro k front
      have added : Block.addLine ⟨Nat.toDigits 10 i, word, front⟩ (childLine i (k + 0) c) =
          ⟨Nat.toDigits 10 i, word, front ++ [c.text]⟩ := by
        simp only [Block.addLine, childText?_childLine]
      have later := ih (k + 1) (front ++ [c.text])
      simp only [Nat.add_assoc, Nat.add_comm 1] at later
      rw [List.mapIdx_cons, List.foldl_cons, added, later, List.append_assoc]
      rfl

end Children

section Lines

variable (l : Listing)

theorem unbraced_word : '\x7b' ∉ l.word := by
  intro member
  have folded : Text.fold '\x7b' ∈ l.role.name.toList := by
    rw [← l.map_fold_word]
    exact List.mem_map_of_mem member
  have apart : ∀ r : Role, Text.fold '\x7b' ∉ r.name.toList := by
    intro r
    cases r <;> decide
  exact apart l.role folded

theorem not_mem_header {c : Char} (noDigit : c.isDigit = false) (noBracket : c ∉ ['[', ']'])
    (noGap : c ∉ l.gap) (noLetter : c ∉ l.word) (i : Nat) : c ∉ l.header i := by
  have digits := Numeral.not_mem_toDigits noDigit i
  simp only [List.mem_cons, List.not_mem_nil, or_false, not_or] at noBracket
  simp [header, digits, noBracket, noGap, noLetter]

theorem not_mem_childLine {c : Char} (noDigit : c.isDigit = false) (noPoint : c ≠ '.')
    {child : Child} (noGap : c ∉ child.gap) (noText : c ∉ child.text) (i k : Nat) :
    c ∉ childLine i k child := by
  have digits := Numeral.not_mem_toDigits noDigit
  simp [childLine, digits, noPoint, noGap, noText]

theorem isLine_header (i : Nat) : IsLine (l.header i) := by
  have unbroken : '\n' ∉ l.word := fun member => by cases l.visible_word _ member
  have last : SolidLast l.word := fun c last => l.visible_word c (List.mem_of_mem_getLast? last)
  have head : SolidHead ('[' :: (Nat.toDigits 10 i ++ ']' :: l.gap)) := by
    rintro c ⟨⟩
    decide
  have shape : l.header i = ('[' :: (Nat.toDigits 10 i ++ ']' :: l.gap)) ++ l.word := by
    simp [header]
  refine ⟨l.not_mem_header (by decide) (by decide) l.isGap.2 unbroken i, ?_, List.cons_ne_nil _ _⟩
  rw [shape]
  exact Text.trim_eq_append head last (List.cons_ne_nil _ _) l.word_ne_nil

theorem isLine_childLine (i k : Nat) (c : Child) : IsLine (childLine i k c) := by
  obtain ⟨d, ds, digits, digit, -⟩ := Numeral.toDigits_eq_cons (n := i)
  have head : SolidHead (Nat.toDigits 10 i ++ '.' :: (Nat.toDigits 10 k ++ c.gap)) := by
    rw [digits]
    rintro e ⟨⟩
    exact Text.not_isBlank_of_ascii digit
  have shape : childLine i k c =
      (Nat.toDigits 10 i ++ '.' :: (Nat.toDigits 10 k ++ c.gap)) ++ c.text := by
    simp [childLine]
  refine ⟨not_mem_childLine (by decide) (by decide) c.isGap.2 c.isLine.unbroken i k, ?_, ?_⟩
  · rw [shape]
    exact Text.trim_eq_append head ((Text.trim_eq_self_iff _).mp c.isLine.trimmed).2 (by simp)
      c.isLine.nonempty
  · simp [childLine]

/-- What holds of every header and of every line of a child holds of all lines. -/
theorem forall_mem_lines {p : List Char → Prop} (listings : List Listing)
    (headers : ∀ (l : Listing) (i : Nat), p (l.header i))
    (children : ∀ (c : Child) (i k : Nat), p (childLine i k c)) :
    ∀ line ∈ lines listings, p line := by
  intro line member
  obtain ⟨block, listed, inside⟩ := List.mem_flatten.mp member
  obtain ⟨i, _, rfl⟩ := List.mem_mapIdx.mp listed
  rcases List.mem_cons.mp inside with rfl | below
  · exact headers _ _
  · obtain ⟨k, _, rfl⟩ := List.mem_mapIdx.mp below
    exact children _ _ _

theorem unbraced_lines (listings : List Listing) : ∀ line ∈ lines listings, '\x7b' ∉ line := by
  have noGap : ∀ {gap : List Char}, IsGap gap → '\x7b' ∉ gap := fun isGap member => by
    cases isGap.1 _ member
  exact forall_mem_lines listings
    (fun l => l.not_mem_header (by decide) (by decide) (noGap l.isGap) l.unbraced_word)
    fun c => not_mem_childLine (by decide) (by decide) (noGap c.isGap) c.unbraced

end Lines

section Blocks

theorem numberedChildren_eq (children : List Child) : ∀ n,
    numberedChildren n (children.map Child.text) =
      children.mapIdx fun k c => numberedLine (n + k) c := by
  induction children with
  | nil => intro n; rfl
  | cons c children ih =>
      intro n
      rw [List.map_cons, numberedChildren, ih, List.mapIdx_cons]
      simp only [numberedLine, Nat.add_zero, Nat.add_assoc, Nat.add_comm 1]

theorem content_block (number word : List Char) (l : Listing) :
    Block.content ⟨number, word, l.children.map Child.text⟩ = l.content := by
  have numbered := numberedChildren_eq l.children 1
  simp only [Nat.add_comm 1] at numbered
  rw [Block.content, content]
  cases some : l.children with
  | nil => rfl
  | cons c children =>
      rw [some] at numbered
      exact congrArg (List.intercalate ['\n']) numbered

theorem exists_header {listings : List Listing} (nonempty : listings ≠ [])
    {written : List (List Char)} (spaced : Spaced (lines listings) written) :
    ∃ more, Text.trim (List.intercalate ['\n'] written) = "[1]".toList ++ more ∧ more ≠ [] := by
  obtain ⟨l, others, rfl⟩ := List.exists_cons_of_ne_nil nonempty
  have first : lines (l :: others) = l.header 1 :: (lines (l :: others)).tail := by
    rw [lines, List.mapIdx_cons]
    rfl
  rw [first] at spaced
  obtain ⟨more, text⟩ := spaced.exists_trim (l.isLine_header 1)
  refine ⟨l.gap ++ l.word ++ more, ?_, by simp [l.word_ne_nil]⟩
  rw [text]
  rfl

/-- Listings are read as blocks with their children. -/
theorem bracketBlocks_listings {listings : List Listing} (nonempty : listings ≠ [])
    {written : List (List Char)} (spaced : Spaced (lines listings) written) :
    bracketBlocks (Text.trim (List.intercalate ['\n'] written)) =
      some (listings.map step) := by
  have isLine := forall_mem_lines listings isLine_header fun c i k => isLine_childLine i k c
  have read := blocksFrom_flatten (fun i l (_ : l ∈ listings) => l.blockHeader?_header i)
    (fun i l _ line (member : line ∈ l.childLines i) => by
      obtain ⟨k, _, rfl⟩ := List.mem_mapIdx.mp member
      exact blockHeader?_childLine _ _ _) 1 none
  have each : ∀ (i : Nat) (l : Listing),
      (l.childLines i).foldl Block.addLine ⟨Nat.toDigits 10 i, l.word, []⟩ =
        ⟨Nat.toDigits 10 i, l.word, l.children.map Child.text⟩ := by
    intro i l
    have added := foldl_addLine i l.word l.children 1 []
    simp only [Nat.add_comm 1] at added
    exact added
  simp only [Nat.add_comm 1, each, Option.toList_none, List.nil_append] at read
  have told : ∀ (i : Nat) (l : Listing), stepOf l.word (Block.content
      ⟨Nat.toDigits 10 (i + 1), l.word, l.children.map Child.text⟩) = l.step := by
    intro i l
    rw [content_block, stepOf_word]
    rfl
  rw [bracketBlocks, Outline.trimmedLines_trim, spaced.trimmedLines_eq isLine, lines, read]
  have steps : (listings.mapIdx fun i l =>
      (⟨Nat.toDigits 10 (i + 1), l.word, l.children.map Child.text⟩ : Block)).map
        (fun b => stepOf b.role b.content) = listings.map step :=
    map_mapIdx_eq_map told listings
  obtain ⟨l, more, rfl⟩ := List.exists_cons_of_ne_nil nonempty
  rw [List.mapIdx_cons] at steps ⊢
  exact congrArg some steps

end Blocks

section Lists

theorem isLine_numberedLine (k : Nat) (c : Child) : IsLine (numberedLine k c) := by
  obtain ⟨d, ds, digits, digit, -⟩ := Numeral.toDigits_eq_cons (n := k)
  have noDigit := Numeral.not_mem_toDigits (c := '\n') (by decide) k
  have head : SolidHead (Nat.toDigits 10 k ++ ['.', ' ']) := by
    rw [digits]
    rintro e ⟨⟩
    exact Text.not_isBlank_of_ascii digit
  have shape : numberedLine k c = (Nat.toDigits 10 k ++ ['.', ' ']) ++ c.text := by
    simp [numberedLine]
  refine ⟨by simp [numberedLine, noDigit, c.isLine.unbroken], ?_, by simp [numberedLine]⟩
  rw [shape]
  exact Text.trim_eq_append head ((Text.trim_eq_self_iff _).mp c.isLine.trimmed).2 (by simp)
    c.isLine.nonempty

/-- A line with a number of one part and a point is an entry of the first level. -/
theorem entryOfLine_numberedLine (k : Nat) (c : Child) :
    Outline.entryOfLine (numberedLine k c) = ⟨String.ofList c.text, .one⟩ := by
  obtain ⟨d, ds, digits, -, -⟩ := Numeral.toDigits_eq_cons (n := k)
  obtain ⟨t, more, nonempty⟩ := List.exists_cons_of_ne_nil c.isLine.nonempty
  have blank : Text.isDigit ' ' = false := by decide
  have point : Outline.spanNumber true ('.' :: ' ' :: c.text) = ([], '.' :: ' ' :: c.text) := by
    rw [Outline.spanNumber, if_neg (by decide), if_neg (by simp [blank])]
  have number : Outline.spanNumber false (numberedLine k c) =
      (Nat.toDigits 10 k, '.' :: ' ' :: c.text) := by
    rw [numberedLine, Outline.spanNumber_digits (Numeral.all_isDigit_toDigits k)
      Nat.toDigits_ne_nil, point, List.append_nil]
  have rest := Outline.span_isBlank ((Text.trim_eq_self_iff _).mp c.isLine.trimmed).1
  have found : Outline.numbered? ['.'] (numberedLine k c) = some (Nat.toDigits 10 k, c.text) := by
    rw [Outline.numbered?, number, digits]
    simp only [List.contains_cons, beq_self_eq_true, Bool.true_or, if_true, rest]
    rw [nonempty]
  have depth : Outline.depthOf (Nat.toDigits 10 k) = 1 := by
    rw [Outline.depthOf, Outline.count_toDigits]
  rw [Outline.entryOfLine, found]
  simp only [depth]
  rfl

theorem read_content (l : Listing) : Outline.read (String.ofList l.content) = l.entries := by
  have isLine : ∀ line ∈ l.children.mapIdx fun k c => numberedLine (k + 1) c, IsLine line := by
    intro line member
    obtain ⟨k, _, rfl⟩ := List.mem_mapIdx.mp member
    exact isLine_numberedLine _ _
  have lines := Outline.trimmedLines_of_lines isLine
  have entered : (l.children.mapIdx fun k c => numberedLine (k + 1) c).map Outline.entryOfLine =
      l.children.map fun c => ⟨String.ofList c.text, .one⟩ :=
    map_mapIdx_eq_map (fun k c => entryOfLine_numberedLine (k + 1) c) l.children
  rw [entries, content]
  cases children : l.children with
  | nil => rfl
  | cons c more =>
      rw [children] at lines entered
      rw [Outline.read_eq, String.toList_ofList, lines, entered]
      rw [String.toList_ofList, lines, List.mapIdx_cons]
      exact List.cons_ne_nil _ _

end Lists

end Listing

section Layout

variable {steps : List Step}

theorem nodes_of_read_chain {g : Graph} (accepted : Graph.read (Step.chain steps) = .ok g) :
    g.nodes = (Step.nodesFrom 1 steps).map Graph.nodeOf := by
  obtain ⟨nodes, edges, described, -, rfl⟩ := (Graph.read_eq_ok_iff g).mp accepted
  obtain rfl : Step.nodesFrom 1 steps = nodes := Json.array.inj described.nodesField
  rfl

theorem nodeOf_step (l : Listing) (n : Nat) : Graph.nodeOf (l.step.toJson n) =
    ⟨Step.idOf n, l.role, l.role.label, String.ofList l.content⟩ := by
  have role : Role.exportedOfName? l.step.role = some l.role :=
    Graph.exportedOfName?_name l.exported
  have named : ((Role.exportedOfName? l.step.role).getD .user) = l.role := by
    rw [role]
    rfl
  exact congrArg (Graph.Node.mk (Step.idOf n) · l.role.label (String.ofList l.content)) named

/-- A chain is laid out as a node for each step, whose items are the lines of the content. -/
theorem items_of_read_chain {g : Graph} (accepted : Graph.read (Step.chain steps) = .ok g)
    (ids : IdSupply) :
    (g.layOut.complete ids).1.nodes.map
        (fun n => (n.id, n.role, n.label, n.items.map Item.toEntry)) =
      g.nodes.map fun m => (m.id, m.role, m.label, Outline.read m.content) := by
  have valid := Graph.valid_of_read accepted
  obtain ⟨-, linked⟩ := Step.of_read_chain accepted
  have drawn := Canvas.map_completeNodes
    (f := fun n => (n.id, n.role, n.label, n.items.map Item.toEntry))
    (by intro n; simp [Canvas.Node.anonymous, Function.comp_def]) g.layOut.nodes ids
  refine drawn.trans ?_
  rw [valid.nodes_layOut_linked linked, List.map_map]
  refine List.map_congr_left fun m _ => ?_
  simp [Graph.draftAt, Canvas.NodeDraft.anonymous, Entry.draft, Function.comp_def]

/-- A text of listings is imported as a chain with a step for each listing, and the nodes of its
layout hold the children as they are written.  Only an integer that is too long, in a document
that a child opens a fence for, is in the way of that. -/
theorem read_listings {listings : List Listing} (nonempty : listings ≠ [])
    {written : List (List Char)} (spaced : Spaced (Listing.lines listings) written) :
    let text := List.intercalate ['\n'] written
    read (String.ofList text) = ((Document.fencedOutcome (Text.trim text)).map fun _ =>
      some (Step.chain (listings.map Listing.step))) ∧
    (∀ n, Document.fencedOutcome (Text.trim text) = .error n → n.StandsIn text) ∧
    ∃ g, Graph.ensure (Step.chain (listings.map Listing.step)) = .ok g ∧
      ∀ ids, (g.layOut.complete ids).1.nodes.map
          (fun n => (n.id, n.role, n.label, n.items.map Item.toEntry)) =
        listings.mapIdx fun i l => (Step.idOf (i + 1), l.role, l.role.label, l.entries) := by
  intro text
  have found : bracketBlocks (Text.trim text) = some (listings.map Listing.step) :=
    Listing.bracketBlocks_listings nonempty spaced
  have all := told_of_bracketBlocks found
  have plain : '\x7b' ∉ (String.ofList text).toList := by
    rw [String.toList_ofList]
    exact spaced.not_mem (by decide) (Listing.unbraced_lines listings)
  obtain ⟨more, begins, some⟩ := Listing.exists_header nonempty spaced
  have exported : ∀ s ∈ listings.map Listing.step, (Role.exportedOfName? s.role).isSome := by
    refine List.forall_mem_map.mpr fun l _ => ?_
    rw [Listing.step, Graph.exportedOfName?_name l.exported]
    rfl
  have accepted := (Graph.read_eq_ok_iff _).mpr ⟨_, _, Step.described_chain all.nonempty
    (fun s listed => (all.told s listed).content) exported, Step.acyclic_links _, rfl⟩
  refine ⟨?_, fun n held => (Document.stands_of_fencedOutcome held).mono (Text.trim_infix text),
    _, Graph.ensure_eq_ok_iff.mpr accepted, fun ids => ?_⟩
  · rw [read_of_header (by rw [String.toList_ofList, begins]) some plain, String.toList_ofList,
      told?_of_bracketBlocks found]
    rfl
  · rw [items_of_read_chain accepted ids, nodes_of_read_chain accepted, Step.nodesFrom_eq,
      mapIdx_map, map_mapIdx, map_mapIdx]
    simp only [nodeOf_step, Listing.read_content, Nat.add_comm 1]

def asked : List Listing :=
  [⟨.system, [], "SYSTEM".toList, [], rfl, by decide, by decide⟩,
    ⟨.user, [' '], "uSer".toList,
      [⟨[' '], "[3] USER".toList, by decide, by decide, ⟨by decide, by decide, by decide⟩, by decide⟩,
        ⟨['\t', ' '], "2. two".toList, by decide, by decide, ⟨by decide, by decide, by decide⟩,
          by decide⟩], rfl, by decide, by decide⟩]

theorem read_listings_asked :
    asked ≠ [] ∧ Spaced (Listing.lines asked)
      [" [1]SYSTEM".toList, [], "[2] uSer ".toList, "2.1 [3] USER".toList, "2.2\t 2. two".toList] ∧
    read " [1]SYSTEM\n\n[2] uSer \n2.1 [3] USER\n2.2\t 2. two" =
      .ok (some (Step.chain [⟨"system", "System", "No content"⟩,
        ⟨"user", "User", "1. [3] USER\n2. 2. two"⟩])) := by
  have some : asked ≠ [] := List.cons_ne_nil _ _
  have spaced : Spaced (Listing.lines asked) [" [1]SYSTEM".toList, [], "[2] uSer ".toList,
      "2.1 [3] USER".toList, "2.2\t 2. two".toList] := by
    have lines : Listing.lines asked = ["[1]SYSTEM".toList, "[2] uSer".toList,
        "2.1 [3] USER".toList, "2.2\t 2. two".toList] := by
      decide +kernel
    have empty : IsGap [] := by decide
    have space : IsGap [' '] := by decide
    rw [lines]
    exact .line space empty (.gap empty (.line empty space (.line empty empty
      (.line empty empty .none))))
  have found := (read_listings some spaced).1
  have steps : asked.map Listing.step = [⟨"system", "System", "No content"⟩,
      ⟨"user", "User", "1. [3] USER\n2. 2. two"⟩] := by
    decide +kernel
  rw [steps] at found
  exact ⟨some, spaced, found⟩

def fencedOnes (k : Nat) : List Char :=
  Document.fence ++ (Document.jsonWord ++ ' ' :: (List.replicate k '1' ++ Document.fence))

theorem isLine_fencedOnes (k : Nat) : IsLine (fencedOnes k) ∧ '\x7b' ∉ fencedOnes k := by
  have other : ∀ c, c ∉ '1' :: Document.fence ++ Document.jsonWord ++ [' '] → c ∉ fencedOnes k := by
    intro c
    simp only [fencedOnes, List.mem_append, List.mem_cons, List.mem_replicate]
    tauto
  have ends : SolidHead Document.fence ∧ SolidLast Document.fence := by
    constructor <;>
      · rintro c ⟨⟩
        rfl
  have shape : fencedOnes k = (Document.fence ++ (Document.jsonWord ++
      ' ' :: List.replicate k '1')) ++ Document.fence := by
    simp [fencedOnes]
  refine ⟨⟨other _ (by decide), ?_, List.cons_ne_nil _ _⟩, other _ (by decide)⟩
  rw [shape]
  exact Text.trim_eq_append (Text.solidHead_append ends.1 (List.cons_ne_nil _ _) _) ends.2
    (List.cons_ne_nil _ _) (List.cons_ne_nil _ _)

theorem fencedOutcome_fencedOnes {k : Nat} (long : Json.digitLimit < k) {front : List Char}
    (plain : '\x60' ∉ front) : Document.fencedOutcome (front ++ fencedOnes k) = .error ⟨k⟩ := by
  obtain ⟨m, rfl⟩ := Nat.exists_eq_add_of_lt long
  have body : ' ' :: (List.replicate (Json.digitLimit + m + 1) '1' ++ Document.fence) =
      (' ' :: List.replicate (Json.digitLimit + m) '1') ++ '1' :: (Document.fence ++ []) := by
    simp [List.replicate_succ']
  have without : ¬ Document.fence <:+: ' ' :: List.replicate (Json.digitLimit + m) '1' := by
    intro inside
    have mark : '\x60' ∈ Document.fence := List.mem_cons_self
    simpa using inside.subset mark
  have marked : Document.fence ≠ [] := List.cons_ne_nil _ _
  have foreign : '1' ∉ Document.fence := by decide
  have found : Document.innerFence? (front ++ fencedOnes (Json.digitLimit + m + 1)) =
      some (Text.trim (' ' :: List.replicate (Json.digitLimit + m + 1) '1')) := by
    rw [Document.innerFence?_append plain, fencedOnes, Document.innerFence?_fence, body,
      Text.cut?_append marked foreign without]
    simp [List.replicate_succ']
  have blank : ∀ c ∈ [' '], Text.isBlank c = true := List.forall_mem_singleton.mpr rfl
  rw [Document.fencedOutcome, found, Option.map_some, Option.getD_some, Document.parse_trim,
    ← Document.parse_trim, ← List.singleton_append, Text.trim_append_of_blank blank,
    Document.parse_trim, Document.outcome_parse_ones long]

def quoting (k : Nat) : Listing :=
  ⟨.system, [' '], "SYSTEM".toList,
    [⟨[' '], fencedOnes k, by decide, by decide, (isLine_fencedOnes k).1, (isLine_fencedOnes k).2⟩],
    rfl, by decide, by decide⟩

theorem lines_quoting (k : Nat) : List.intercalate ['\n'] (Listing.lines [quoting k]) =
    "[1] SYSTEM\n1.1 ".toList ++ fencedOnes k := by
  have written : Listing.lines [quoting k] =
      ["[1] SYSTEM".toList, "1.1 ".toList ++ fencedOnes k] := rfl
  rw [written, List.intercalate_cons_cons, List.intercalate_singleton]
  rfl

/-- The integer in the fence is too long, and the import does not get past it. -/
theorem read_quoting : Spaced (Listing.lines [quoting 4301]) (Listing.lines [quoting 4301]) ∧
    read (String.ofList (List.intercalate ['\n'] (Listing.lines [quoting 4301]))) =
      .error ⟨4301⟩ := by
  have spaced := Outline.spaced_self (Listing.lines [quoting 4301])
  have text := lines_quoting 4301
  have trimmed : Text.trim ("[1] SYSTEM\n1.1 ".toList ++ fencedOnes 4301) =
      "[1] SYSTEM\n1.1 ".toList ++ fencedOnes 4301 := by
    refine Text.trim_eq_append ?_ ?_ (by decide) (List.cons_ne_nil _ _)
    · rintro c ⟨⟩
      rfl
    · exact ((Text.trim_eq_self_iff _).mp (isLine_fencedOnes 4301).1.trimmed).2
  obtain ⟨more, begins, some⟩ := Listing.exists_header (List.cons_ne_nil _ _) spaced
  have plain := spaced.not_mem (c := '\x7b') (by decide) (Listing.unbraced_lines _)
  refine ⟨spaced, ?_⟩
  rw [read_of_header (by rw [String.toList_ofList, begins]) some
    (by rwa [String.toList_ofList]), String.toList_ofList, text, trimmed,
    fencedOutcome_fencedOnes (by decide) (by decide)]
  rfl

end Layout

end PromptCanvas.Import
