import PromptCanvas.Graph.Role
import PromptCanvas.Import.Dialects
import PromptCanvas.Proofs.Outline.Rereading
import PromptCanvas.Proofs.Text.Searching

/-! # Numbered lists in bracketed blocks

A bracketed block reads a line of a numbered list as a child exactly if its number has two parts
and the first of them is the number of the block (`childText?_lineText`).  Any other line goes on
with the child before it, if there is one, so that what a block gathers of a list are the lines
from each of its children up to the next (`children_foldl`). -/

set_option autoImplicit false

namespace PromptCanvas.Import

open Outline (Numbered lineText tokenText)
open Text (SolidHead SolidLast)

section Numbers

theorem span_isDigit {n : Nat} {c : Char} (other : Text.isDigit c = false) (rest : List Char) :
    (Nat.toDigits 10 n ++ c :: rest).span Text.isDigit = (Nat.toDigits 10 n, c :: rest) := by
  have digits : ∀ d ∈ Nat.toDigits 10 n, Text.isDigit d = true := fun d member =>
    Text.isDigit_of_ascii (List.all_eq_true.mp (Numeral.all_isDigit_toDigits n) d member)
  rw [List.span_eq_takeWhile_dropWhile, List.takeWhile_append_of_pos digits,
    List.dropWhile_append_of_pos digits, List.takeWhile_cons_of_neg (by simp [other]),
    List.dropWhile_cons_of_neg (by simp [other]), List.append_nil]

theorem toDigits_append_inj {k m : Nat} {c d : Char} {front back : List Char}
    (first : c.isDigit = false) (second : d.isDigit = false)
    (same : Nat.toDigits 10 k ++ c :: front = Nat.toDigits 10 m ++ d :: back) :
    k = m ∧ c :: front = d :: back := by
  have cut : ∀ (n : Nat) {e : Char} (rest : List Char), e.isDigit = false →
      (Nat.toDigits 10 n ++ e :: rest).span Char.isDigit = (Nat.toDigits 10 n, e :: rest) := by
    intro n e rest stops
    refine Numeral.span_digits (Numeral.all_isDigit_toDigits n) ?_
    rintro _ ⟨⟩
    exact stops
  have left := cut k front first
  rw [same, cut m back second] at left
  obtain ⟨digits, rest⟩ := Prod.mk.inj left
  refine ⟨?_, rest.symm⟩
  rw [← Numeral.natOf_toDigits k, ← digits, Numeral.natOf_toDigits]

end Numbers

section Lines

variable {k : Nat} {n : List Nat × Entry}

/-- The number of an entry has two parts, the first of which is the number of the block. -/
def opens (k : Nat) (n : List Nat × Entry) : Bool :=
  match n.1 with
  | [m, _] => m == k
  | _ => false

theorem bracketed?_of_head {words : List (List Char)} {cs : List Char}
    (other : ∀ c ∈ cs.head?, c ≠ '[') : bracketed? words cs = none := by
  unfold bracketed?
  split
  · exact absurd rfl (other '[' rfl)
  · rfl

theorem bracketed?_of_open {words : List (List Char)} {cs : List Char}
    (other : ∀ c ∈ (cs.dropWhile Text.isDigit).head?, c ≠ ']') :
    bracketed? words ('[' :: cs) = none := by
  rw [bracketed?]
  split
  · rfl
  · next number rest _ cut =>
      rw [List.span_eq_takeWhile_dropWhile, Prod.mk.injEq] at cut
      rw [cut.2] at other
      exact absurd rfl (other ']' rfl)
  · rfl

theorem bracketed?_of_closed {words : List (List Char)} {cs number rest : List Char}
    (cut : cs.span Text.isDigit = (number, ']' :: rest)) :
    bracketed? words ('[' :: cs) =
      if number = [] then none
      else (Text.oneOf? words (Text.trimStart rest)).map fun found =>
        (number, found.1, found.2) := by
  rw [bracketed?]
  simp only [cut]
  cases number with
  | nil => rfl
  | cons d ds => simp only [reduceCtorEq, if_false]

theorem blockHeader?_of_head {line : List Char} (other : ∀ c ∈ line.head?, c ≠ '[') :
    blockHeader? line = none := by
  rw [blockHeader?, bracketed?_of_head other]

theorem blockHeader?_lineText (numbered : Numbered n) : blockHeader? (lineText n) = none := by
  obtain ⟨d, more, text, digit⟩ := Outline.head_tokenText numbered.parts
  refine blockHeader?_of_head ?_
  rw [lineText, text]
  rintro c ⟨⟩ rfl
  cases digit

theorem childText?_of_other {number line : List Char} (other : ¬ number ++ ['.'] <+: line) :
    childText? number line = none := by
  rw [childText?, Text.isPrefixOf?_eq_none other]

/-- Behind its first part a number is read on, and it has to end with the second. -/
theorem childText?_tokenText {m : Nat} {ns : List Nat} (text : List Char) (solid : SolidHead text)
    (nonempty : text ≠ []) : childText? (Nat.toDigits 10 k)
      (Nat.toDigits 10 k ++ '.' :: (tokenText (m :: ns) ++ ' ' :: text)) =
        if ns = [] then some (Text.trim text) else none := by
  have found : (Nat.toDigits 10 k ++ ['.']).isPrefixOf?
      (Nat.toDigits 10 k ++ '.' :: (tokenText (m :: ns) ++ ' ' :: text)) =
        some (tokenText (m :: ns) ++ ' ' :: text) :=
    List.isPrefixOf?_eq_some_iff_append_eq.mpr (by simp)
  obtain ⟨d, ds, digits, -, -⟩ := Numeral.toDigits_eq_cons (n := m)
  obtain ⟨c, more, rfl⟩ := List.exists_cons_of_ne_nil nonempty
  rw [childText?, found]
  by_cases last : ns = []
  · have cut := span_isDigit (n := m) (c := ' ') (by decide) (c :: more)
    rw [last, Outline.tokenText_single, if_pos rfl]
    simp only [cut]
    rw [digits]
    simp only [Outline.span_isBlank solid]
  · have cut := span_isDigit (n := m) (c := '.') (by decide) (tokenText ns ++ ' ' :: c :: more)
    have point : ('.' :: (tokenText ns ++ ' ' :: c :: more)).span Text.isBlank =
        ([], '.' :: (tokenText ns ++ ' ' :: c :: more)) := by
      rw [List.span_eq_takeWhile_dropWhile, List.takeWhile_cons_of_neg (by decide),
        List.dropWhile_cons_of_neg (by decide)]
    rw [Outline.tokenText_cons m ns last, List.append_assoc, List.cons_append, if_neg last]
    simp only [cut]
    rw [digits]
    simp only [point]

theorem childText?_lineText (numbered : Numbered n) (visible : Text.trim n.2.text.toList ≠ []) :
    childText? (Nat.toDigits 10 k) (lineText n) =
      if opens k n then some (Text.trim n.2.text.toList) else none := by
  obtain ⟨token, e⟩ := n
  obtain ⟨m, ns, rfl⟩ := List.exists_cons_of_ne_nil numbered.parts
  have stops : Char.isDigit '.' = false := by decide
  cases ns with
  | nil =>
      refine childText?_of_other ?_
      rintro ⟨rest, same⟩
      rw [lineText, Outline.tokenText_single, List.append_assoc] at same
      cases (toDigits_append_inj stops (by decide) same).2
  | cons j ms =>
      have line : lineText (m :: j :: ms, e) = Nat.toDigits 10 m ++
          '.' :: (tokenText (j :: ms) ++ ' ' :: Text.trim e.text.toList) := by
        rw [lineText, Outline.tokenText_cons m _ (List.cons_ne_nil j ms), List.append_assoc,
          List.cons_append]
      rw [line]
      by_cases same : m = k
      · rw [same, childText?_tokenText _ (Text.solidHead_trim _) visible, Text.trim_trim]
        cases ms <;> simp [opens]
      · have closed : opens k (m :: j :: ms, e) = false := by
          cases ms <;> simp [opens, same]
        rw [closed]
        refine childText?_of_other ?_
        rintro ⟨rest, whole⟩
        rw [List.append_assoc] at whole
        exact same (toDigits_append_inj stops stops whole).1.symm

end Lines

section Gathering

variable {k : Nat} {n : List Nat × Entry} {ns : List (List Nat × Entry)}

/-- The text of each line that opens a child, with all lines up to the next such one behind it. -/
def gather (k : Nat) : List (List Nat × Entry) → List (List Char)
  | [] => []
  | n :: ns =>
      if opens k n then
        (Text.trim n.2.text.toList ++
          (ns.takeWhile fun m => !opens k m).flatMap fun m => ' ' :: lineText m) :: gather k ns
      else gather k ns

/-- A line of a list, with a part of its number for each level and a text that fills the line. -/
structure Shown (n : List Nat × Entry) : Prop where
  numbered : Numbered n
  clean : n.2.Clean

theorem Shown.solidLast (shown : Shown n) : SolidLast (lineText n) := by
  rw [lineText, ← List.singleton_append, ← List.append_assoc]
  exact Text.solidLast_append (Text.solidLast_trim _) shown.clean.solid _

theorem continueLast_concat (front : List (List Char)) (child line : List Char) :
    continueLast line (front ++ [child]) = front ++ [Text.trim (child ++ ' ' :: line)] := by
  induction front with
  | nil => rfl
  | cons first front ih =>
      rw [List.cons_append, continueLast, ih]
      · rfl
      · simp

/-- The children of a block after some lines of a list, where there is a last child already. -/
theorem children_foldl_concat (shown : ∀ n ∈ ns, Shown n) :
    ∀ (role : List Char) (front : List (List Char)) {child : List Char}, SolidHead child →
      child ≠ [] →
        (ns.map lineText).foldl Block.addLine ⟨Nat.toDigits 10 k, role, front ++ [child]⟩ =
          ⟨Nat.toDigits 10 k, role, front ++ (child ++
            (ns.takeWhile fun m => !opens k m).flatMap fun m => ' ' :: lineText m) ::
              gather k ns⟩ := by
  induction ns with
  | nil => simp [gather]
  | cons n ns ih =>
      intro role front child head nonempty
      obtain ⟨first, rest⟩ := List.forall_mem_cons.mp shown
      have read := childText?_lineText (k := k) first.numbered first.clean.solid
      rw [List.map_cons, List.foldl_cons]
      by_cases opened : opens k n = true
      · rw [if_pos opened] at read
        have added : Block.addLine ⟨Nat.toDigits 10 k, role, front ++ [child]⟩ (lineText n) =
            ⟨Nat.toDigits 10 k, role, front ++ [child] ++ [Text.trim n.2.text.toList]⟩ := by
          simp only [Block.addLine, read]
        rw [added, ih rest role _ (Text.solidHead_trim _) first.clean.solid]
        simp [gather, opened]
      · rw [if_neg opened] at read
        have solid : Text.trim (child ++ ' ' :: lineText n) = child ++ ' ' :: lineText n := by
          rw [← List.singleton_append, ← List.append_assoc]
          exact Text.trim_eq_append (Text.solidHead_append head nonempty _) first.solidLast
            (by simp [nonempty]) (Outline.lineText_ne_nil n)
        have added : Block.addLine ⟨Nat.toDigits 10 k, role, front ++ [child]⟩ (lineText n) =
            ⟨Nat.toDigits 10 k, role, front ++ [child ++ ' ' :: lineText n]⟩ := by
          simp only [Block.addLine, read, continueLast_concat, solid]
        have headed : SolidHead (child ++ ' ' :: lineText n) :=
          solid ▸ Text.solidHead_trim _
        rw [added, ih rest role front headed (by simp)]
        simp [gather, opened]

/-- A block gathers its children from the lines of a list. -/
theorem children_foldl (role : List Char) (shown : ∀ n ∈ ns, Shown n) :
    (ns.map lineText).foldl Block.addLine ⟨Nat.toDigits 10 k, role, []⟩ =
      ⟨Nat.toDigits 10 k, role, gather k ns⟩ := by
  induction ns with
  | nil => rfl
  | cons n ns ih =>
      obtain ⟨first, rest⟩ := List.forall_mem_cons.mp shown
      have read := childText?_lineText (k := k) first.numbered first.clean.solid
      rw [List.map_cons, List.foldl_cons]
      by_cases opened : opens k n = true
      · rw [if_pos opened] at read
        have added : Block.addLine ⟨Nat.toDigits 10 k, role, []⟩ (lineText n) =
            ⟨Nat.toDigits 10 k, role, [] ++ [Text.trim n.2.text.toList]⟩ := by
          simp only [Block.addLine, read]
        rw [added, children_foldl_concat rest role [] (Text.solidHead_trim _) first.clean.solid]
        simp [gather, opened]
      · rw [if_neg opened] at read
        have added : Block.addLine ⟨Nat.toDigits 10 k, role, []⟩ (lineText n) =
            ⟨Nat.toDigits 10 k, role, []⟩ := by
          simp only [Block.addLine, read, continueLast]
        rw [added, ih rest]
        simp [gather, opened]

end Gathering

section Places

theorem map_mapIdx {α β γ : Type} (f : Nat → α → β) (g : β → γ) (as : List α) :
    (as.mapIdx f).map g = as.mapIdx fun i a => g (f i a) := by
  induction as generalizing f with
  | nil => rfl
  | cons a as ih => rw [List.mapIdx_cons, List.mapIdx_cons, List.map_cons, ih]

theorem mapIdx_map {α β γ : Type} (f : α → β) (g : Nat → β → γ) (as : List α) :
    (as.map f).mapIdx g = as.mapIdx fun i a => g i (f a) :=
  List.ext_getElem (by simp) (by simp)

theorem map_mapIdx_eq_map {α β γ : Type} {f : Nat → α → β} {g : β → γ} {h : α → γ}
    (same : ∀ i a, g (f i a) = h a) (as : List α) : (as.mapIdx f).map g = as.map h := by
  rw [map_mapIdx]
  simp only [same]
  exact List.ext_getElem (by simp) (by simp)

end Places

section Blocks

variable {k : Nat} {r : Role}

def headerLine (k : Nat) (r : Role) : List Char :=
  '[' :: (Nat.toDigits 10 k ++ ']' :: ' ' :: r.heading.toList)

theorem bracketed?_append {words : List (List Char)} {gap text : List Char} (k : Nat)
    (blank : ∀ c ∈ gap, Text.isBlank c = true) (solid : SolidHead text) :
    bracketed? words ('[' :: (Nat.toDigits 10 k ++ ']' :: (gap ++ text))) =
      (Text.oneOf? words text).map fun found => (Nat.toDigits 10 k, found.1, found.2) := by
  have cut := span_isDigit (n := k) (c := ']') (by decide) (gap ++ text)
  have start : Text.trimStart (gap ++ text) = text := by
    rw [Text.trimStart, List.dropWhile_append_of_pos blank,
      Text.dropWhile_eq_self_of_solidHead solid]
  have digits : Nat.toDigits 10 k ≠ [] := by
    obtain ⟨d, ds, digits, -, -⟩ := Numeral.toDigits_eq_cons (n := k)
    exact digits ▸ List.cons_ne_nil d ds
  rw [bracketed?_of_closed cut, if_neg digits, start]

theorem blockHeader?_headerLine (exported : r.isExported = true) :
    blockHeader? (headerLine k r) = some ⟨Nat.toDigits 10 k, r.heading.toList, []⟩ := by
  have solid : SolidHead r.heading.toList := by
    cases r <;> (rintro c ⟨⟩; decide)
  have word : Text.oneOf? exportedWords r.heading.toList = some (r.heading.toList, []) := by
    cases r with
    | condition => cases exported
    | _ => decide
  have bracketed : bracketed? exportedWords (headerLine k r) =
      some (Nat.toDigits 10 k, r.heading.toList, []) := by
    have blank : ∀ c ∈ [' '], Text.isBlank c = true := List.forall_mem_singleton.mpr (by decide)
    have header : headerLine k r =
        '[' :: (Nat.toDigits 10 k ++ ']' :: ([' '] ++ r.heading.toList)) := rfl
    rw [header, bracketed?_append k blank solid, word, Option.map_some]
  rw [blockHeader?, bracketed]
  rfl

theorem blocksFrom_append {body : List (List Char)}
    (plain : ∀ line ∈ body, blockHeader? line = none) (b : Block) (rest : List (List Char)) :
    blocksFrom (some b) (body ++ rest) = blocksFrom (some (body.foldl Block.addLine b)) rest := by
  induction body generalizing b with
  | nil => rfl
  | cons line body ih =>
      obtain ⟨first, others⟩ := List.forall_mem_cons.mp plain
      rw [List.cons_append, blocksFrom, first]
      exact ih others (b.addLine line)

/-- Headers with other lines below them are read as blocks, each with the lines below it. -/
theorem blocksFrom_flatten {α : Type} {header : Nat → α → List Char}
    {body : Nat → α → List (List Char)} {start : Nat → α → Block} {as : List α}
    (opens : ∀ k, ∀ a ∈ as, blockHeader? (header k a) = some (start k a))
    (plain : ∀ k, ∀ a ∈ as, ∀ line ∈ body k a, blockHeader? line = none) :
    ∀ (k : Nat) (current : Option Block),
      blocksFrom current (as.mapIdx fun i a => header (k + i) a :: body (k + i) a).flatten =
        current.toList ++
          as.mapIdx fun i a => (body (k + i) a).foldl Block.addLine (start (k + i) a) := by
  induction as with
  | nil => intro k current; cases current <;> rfl
  | cons a as ih =>
      intro k current
      have later := ih (fun k b listed => opens k b (List.mem_cons_of_mem a listed))
        (fun k b listed => plain k b (List.mem_cons_of_mem a listed)) (k + 1)
      simp only [Nat.add_assoc, Nat.add_comm 1] at later
      rw [List.mapIdx_cons, List.mapIdx_cons, List.flatten_cons, List.cons_append, blocksFrom,
        Nat.add_zero, opens k a List.mem_cons_self]
      simp only
      rw [blocksFrom_append (plain k a List.mem_cons_self), later]
      rfl

variable {α : Type} (role : α → Role) (list : α → List (List Nat × Entry))

/-- Headers with lists below them are read as blocks, each with what it gathers of its list. -/
theorem blocksFrom_lists {as : List α} (exported : ∀ a ∈ as, (role a).isExported = true)
    (shown : ∀ a ∈ as, ∀ n ∈ list a, Shown n) (k : Nat) (current : Option Block) :
    blocksFrom current
        (as.mapIdx fun i a => headerLine (k + i) (role a) :: (list a).map lineText).flatten =
      current.toList ++ as.mapIdx fun i a =>
        ⟨Nat.toDigits 10 (k + i), (role a).heading.toList, gather (k + i) (list a)⟩ := by
  have plain : ∀ a ∈ as, ∀ line ∈ (list a).map lineText, blockHeader? line = none := by
    intro a listed line member
    obtain ⟨n, below, rfl⟩ := List.mem_map.mp member
    exact blockHeader?_lineText (shown a listed n below).numbered
  have opens : ∀ k, ∀ a ∈ as, blockHeader? (headerLine k (role a)) =
      some ⟨Nat.toDigits 10 k, (role a).heading.toList, []⟩ := fun k a listed =>
    blockHeader?_headerLine (exported a listed)
  rw [blocksFrom_flatten opens (fun _ => plain) k current]
  congr 1
  rw [List.mapIdx_eq_mapIdx_iff]
  intro i inside
  exact children_foldl _ (shown _ (List.getElem_mem inside))

theorem told?_of_bracketBlocks {cs : List Char} {steps : List Step}
    (found : bracketBlocks cs = some steps) : told? cs = some steps := by
  rw [told?, dialects, List.findSome?_cons, found]

end Blocks

end PromptCanvas.Import
