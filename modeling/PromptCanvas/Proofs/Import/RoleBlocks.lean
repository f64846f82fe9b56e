import Mathlib.Data.List.Chain
import PromptCanvas.Proofs.Import.Brackets
import PromptCanvas.Proofs.Import.Dialects

/-! # Headers and bodies of role blocks

A header of a role block takes the blanks below it up to the last newline
(`afterNewline?_append`), and a body goes on to the next newline with a header behind it
(`spanBody_append_of_unbracketed`).  So a body that is not blank opens right below its header
(`exists_opens`), and below a blank one the header goes on to the text that follows
(`opens_append`).  `blocksIn` is what is found in a text, without a bound on the count of steps. -/

set_option autoImplicit false

namespace PromptCanvas.Import

open Text (SolidHead SolidLast)

section Headers

variable {cs after word : List Char}

theorem roleHeader?_of_head (other : ∀ c ∈ cs.head?, c ≠ '[') : roleHeader? cs = none := by
  rw [roleHeader?, bracketed?_of_head other]

theorem oneOf?_heading (r : Role) (rest : List Char) :
    Text.oneOf? roleWords (r.heading.toList ++ rest) = some (r.heading.toList, rest) := by
  cases r <;> rfl

theorem roleHeader?_headerLine (k : Nat) (r : Role) (rest : List Char) :
    roleHeader? (headerLine k r ++ rest) =
      (afterNewline? rest).map fun after => (r.heading.toList, after) := by
  have solid : SolidHead (r.heading.toList ++ rest) := by
    cases r <;> (rintro c ⟨⟩; decide)
  have header : headerLine k r ++ rest =
      '[' :: (Nat.toDigits 10 k ++ ']' :: ([' '] ++ (r.heading.toList ++ rest))) := by
    simp [headerLine]
  have blank : ∀ c ∈ [' '], Text.isBlank c = true := List.forall_mem_singleton.mpr (by decide)
  have found : bracketed? roleWords (headerLine k r ++ rest) =
      some (Nat.toDigits 10 k, r.heading.toList, rest) := by
    rw [header, bracketed?_append k blank solid, oneOf?_heading, Option.map_some]
  rw [roleHeader?, found]

theorem afterNewline?_append {gap : List Char} (blank : ∀ c ∈ gap, Text.isBlank c = true)
    (bare : '\n' ∉ cs.takeWhile Text.isBlank) : afterNewline? (gap ++ '\n' :: cs) = some cs := by
  have front : ∀ c ∈ gap ++ ['\n'], Text.isBlank c = true :=
    List.forall_mem_append.mpr ⟨blank, List.forall_mem_singleton.mpr (by decide)⟩
  have whole : gap ++ '\n' :: cs = (gap ++ ['\n']) ++ cs := by simp
  have other : ∀ c ∈ (cs.takeWhile Text.isBlank).reverse, (c != '\n') = true := by
    intro c member
    rw [bne_iff_ne]
    rintro rfl
    exact bare (List.mem_reverse.mp member)
  rw [afterNewline?, whole, List.span_eq_takeWhile_dropWhile, List.takeWhile_append_of_pos front,
    List.dropWhile_append_of_pos front]
  simp only [List.reverse_append, List.reverse_cons, List.reverse_nil, List.nil_append,
    List.singleton_append]
  rw [List.span_eq_takeWhile_dropWhile, List.takeWhile_append_of_pos other,
    List.dropWhile_append_of_pos other, List.takeWhile_cons_of_neg (by simp),
    List.dropWhile_cons_of_neg (by simp)]
  simp [List.takeWhile_append_dropWhile]

theorem afterNewline?_eq_none (bare : '\n' ∉ cs.takeWhile Text.isBlank) :
    afterNewline? cs = none := by
  have other : ∀ c ∈ (cs.takeWhile Text.isBlank).reverse, (c != '\n') = true := by
    intro c member
    rw [bne_iff_ne]
    rintro rfl
    exact bare (List.mem_reverse.mp member)
  rw [afterNewline?, List.span_eq_takeWhile_dropWhile]
  simp only
  rw [List.span_eq_takeWhile_dropWhile, List.dropWhile_eq_nil_iff.mpr other]

theorem exists_lastNewline (member : '\n' ∈ cs.takeWhile Text.isBlank) :
    ∃ gap below, cs = gap ++ '\n' :: below ∧ (∀ c ∈ gap, Text.isBlank c = true) ∧
      '\n' ∉ below.takeWhile Text.isBlank := by
  obtain ⟨kept, gap, blanks, bare⟩ := List.eq_append_cons_of_mem (List.mem_reverse.mpr member)
  have cut : cs.takeWhile Text.isBlank = gap.reverse ++ '\n' :: kept.reverse := by
    rw [← List.reverse_reverse (List.takeWhile _ _), blanks]
    simp
  have blank : ∀ c ∈ gap.reverse ++ '\n' :: kept.reverse, Text.isBlank c = true := fun c inside =>
    List.mem_takeWhile_imp (cut ▸ inside)
  have solid := Text.solidHead_dropWhile cs
  have stops : (cs.dropWhile Text.isBlank).takeWhile Text.isBlank = [] := by
    cases rest : cs.dropWhile Text.isBlank with
    | nil => rfl
    | cons c more => exact List.takeWhile_cons_of_neg (by simp [solid c (by rw [rest]; rfl)])
  refine ⟨gap.reverse, kept.reverse ++ cs.dropWhile Text.isBlank, ?_,
    fun c inside => blank c (List.mem_append_left _ inside), ?_⟩
  · conv_lhs => rw [← List.takeWhile_append_dropWhile (p := Text.isBlank) (l := cs), cut]
    simp
  · rw [List.takeWhile_append_of_pos fun c inside => blank c (by simp [List.mem_reverse.mp inside]),
      stops, List.append_nil, List.mem_reverse]
    exact bare

theorem newline_mem_takeWhile (cs : List Char) : '\n' ∈ ('\n' :: cs).takeWhile Text.isBlank := by
  rw [List.takeWhile_cons_of_pos (by decide)]
  exact List.mem_cons_self

theorem exists_afterNewline? (cs : List Char) : ∃ after, afterNewline? ('\n' :: cs) = some after := by
  obtain ⟨gap, below, whole, blank, bare⟩ := exists_lastNewline (newline_mem_takeWhile cs)
  exact ⟨below, whole ▸ afterNewline?_append blank bare⟩

end Headers

section Rest

variable {cs after word : List Char}

theorem length_afterNewline? (found : afterNewline? cs = some after) :
    after.length < cs.length := by
  unfold afterNewline? at found
  rw [List.span_eq_takeWhile_dropWhile] at found
  dsimp only at found
  have parts : (cs.takeWhile Text.isBlank).length + (cs.dropWhile Text.isBlank).length =
      cs.length := by
    rw [← List.length_append, List.takeWhile_append_dropWhile]
  split at found
  · cases found
  · next kept back nonempty cut =>
      cases found
      rw [List.span_eq_takeWhile_dropWhile, Prod.mk.injEq] at cut
      have whole : kept.length + back.length = (cs.takeWhile Text.isBlank).length := by
        rw [← cut.1, ← cut.2, ← List.length_append, List.takeWhile_append_dropWhile,
          List.length_reverse]
      have positive : 0 < back.length := List.length_pos_iff.mpr nonempty
      rw [List.length_append, List.length_reverse]
      omega

theorem length_bracketed? {words : List (List Char)} {number rest : List Char}
    (found : bracketed? words cs = some (number, word, rest)) : rest.length ≤ cs.length := by
  unfold bracketed? at found
  split at found
  · next inner =>
      split at found
      · cases found
      · next digits behind _ cut =>
          obtain ⟨⟨read, left⟩, reads, pair⟩ := Option.map_eq_some_iff.mp found
          obtain ⟨-, -, rfl⟩ : digits = number ∧ read = word ∧ left = rest := by simpa using pair
          obtain ⟨whole, -⟩ := Text.oneOf?_eq_some reads
          rw [List.span_eq_takeWhile_dropWhile, Prod.mk.injEq] at cut
          have start : (Text.trimStart behind).length ≤ behind.length :=
            (List.dropWhile_suffix _).length_le
          have closed : (']' :: behind).length ≤ inner.length :=
            cut.2 ▸ (List.dropWhile_suffix _).length_le
          rw [whole, List.length_append] at start
          rw [List.length_cons] at closed ⊢
          omega
      · cases found
  · cases found

theorem length_roleHeader? (found : roleHeader? cs = some (word, after)) :
    after.length < cs.length := by
  unfold roleHeader? at found
  split at found
  · next number read rest header =>
      obtain ⟨left, ends, pair⟩ := Option.map_eq_some_iff.mp found
      obtain ⟨-, rfl⟩ := Prod.mk.inj pair
      exact (length_afterNewline? ends).trans_le (length_bracketed? header)
  · cases found

theorem spanBody_cons_of_ne {c : Char} (other : c ≠ '\n') (cs : List Char) :
    spanBody (c :: cs) = (c :: (spanBody cs).1, (spanBody cs).2) := by
  rw [spanBody, decide_eq_false other]
  rfl

theorem length_spanBody (cs : List Char) : (spanBody cs).2.length ≤ cs.length := by
  have whole := congrArg List.length (spanBody_append cs)
  rw [List.length_append] at whole
  omega

/-- The bound on the count of steps does not matter, if only it reaches to the end. -/
theorem roleBlocksFrom_eq {n : Nat} : ∀ {m : Nat} {cs : List Char}, cs.length ≤ n →
    cs.length ≤ m → roleBlocksFrom n cs = roleBlocksFrom m cs := by
  induction n with
  | zero =>
      intro m cs short _
      rw [List.length_eq_zero_iff.mp (Nat.le_zero.mp short)]
      cases m <;> rfl
  | succ n ih =>
      intro m cs short short'
      cases cs with
      | nil => cases m <;> rfl
      | cons c cs =>
          cases m with
          | zero => cases short'
          | succ m =>
              rw [List.length_cons] at short short'
              rw [roleBlocksFrom, roleBlocksFrom]
              split
              · next word after header =>
                  have less := length_roleHeader? header
                  have rest := length_spanBody after
                  rw [List.length_cons] at less
                  exact congrArg _ (ih (by omega) (by omega))
              · exact ih (by omega) (by omega)

def blocksIn (cs : List Char) : List (List Char × List Char) := roleBlocksFrom cs.length cs

theorem blocksIn_of_header (header : roleHeader? cs = some (word, after)) :
    blocksIn cs = (word, Text.trim (spanBody after).1) :: blocksIn (spanBody after).2 := by
  have less := length_roleHeader? header
  have rest := length_spanBody after
  cases cs with
  | nil => cases less
  | cons c cs =>
      rw [List.length_cons] at less
      rw [blocksIn, List.length_cons, roleBlocksFrom, header]
      exact congrArg _ (roleBlocksFrom_eq (by omega) (Nat.le_refl _))

theorem blocksIn_cons {c : Char} (none : roleHeader? (c :: cs) = none) :
    blocksIn (c :: cs) = blocksIn cs := by
  rw [blocksIn, List.length_cons, roleBlocksFrom, none]
  rfl

theorem blocksIn_cons_of_ne {c : Char} (other : c ≠ '[') (cs : List Char) :
    blocksIn (c :: cs) = blocksIn cs :=
  blocksIn_cons (roleHeader?_of_head (by rintro d ⟨⟩; exact other))

theorem blocksIn_of_not_mem (without : '[' ∉ cs) : blocksIn cs = [] := by
  induction cs with
  | nil => rfl
  | cons c cs ih =>
      obtain ⟨other, rest⟩ := not_or.mp (List.mem_cons.not.mp without)
      rw [blocksIn_cons_of_ne (Ne.symm other), ih rest]

theorem roleBlocks_eq (cs : List Char) : roleBlocks cs =
    match (blocksIn (Text.trim cs)).filter fun b => !b.2.isEmpty with
    | [] => none
    | blocks => some (blocks.map fun b => stepOf b.1 b.2) := rfl

end Rest

section Bodies

variable {body below cs rest : List Char}

def Unbracketed (cs : List Char) : Prop := cs.IsChain fun c d => c = '\n' → d ≠ '['

theorem unbracketed_of_not_mem (without : '[' ∉ cs) : Unbracketed cs :=
  (List.isChain_isInfix cs).imp_of_mem_imp fun _ _ _ member _ _ same => without (same ▸ member)

theorem unbracketed_of_unbroken (unbroken : '\n' ∉ cs) : Unbracketed cs :=
  (List.isChain_isInfix cs).imp_of_mem_imp fun _ _ member _ _ same => absurd (same ▸ member) unbroken

theorem unbracketed_append {front : List Char} (unbroken : '\n' ∉ front) (plain : Unbracketed cs) :
    Unbracketed (front ++ cs) := by
  induction front with
  | nil => exact plain
  | cons c front ih =>
      obtain ⟨other, later⟩ := not_or.mp (List.mem_cons.not.mp unbroken)
      exact (ih later).cons fun _ _ same => absurd same.symm other

theorem unbracketed_lines {lines : List (List Char)} (unbroken : ∀ line ∈ lines, '\n' ∉ line)
    (other : ∀ line ∈ lines, ∃ c more, line = c :: more ∧ c ≠ '[') (plain : Unbracketed rest) :
    Unbracketed (lines.flatMap (['\n'] ++ ·) ++ rest) := by
  induction lines with
  | nil => exact plain
  | cons line lines ih =>
      obtain ⟨own, breaks⟩ := List.forall_mem_cons.mp unbroken
      obtain ⟨⟨c, more, rfl, visible⟩, heads⟩ := List.forall_mem_cons.mp other
      have later := unbracketed_append own (ih breaks heads)
      rw [List.flatMap_cons, List.append_assoc, List.append_assoc]
      refine later.cons ?_
      rintro d ⟨⟩ -
      exact visible

theorem spanBody_append_of_unbracketed (plain : Unbracketed body)
    (other : ∀ c ∈ rest.head?, c ≠ '[') :
    spanBody (body ++ rest) = (body ++ (spanBody rest).1, (spanBody rest).2) := by
  induction body with
  | nil => rfl
  | cons c body ih =>
      have later := ih (List.IsChain.tail plain)
      have none : ¬ (c = '\n' && (roleHeader? (body ++ rest)).isSome) = true := by
        intro both
        obtain ⟨newline, header⟩ := Bool.and_eq_true_iff.mp both
        have missing : roleHeader? (body ++ rest) = .none := by
          refine roleHeader?_of_head ?_
          cases body with
          | nil => exact other
          | cons d more =>
              rintro e ⟨⟩
              exact (List.isChain_cons_cons.mp plain).1 (of_decide_eq_true newline)
        rw [missing] at header
        cases header
      rw [List.cons_append, spanBody, if_neg (by simpa using none), later]
      rfl

/-- What a header leaves of the text below it, which is not blank and begins no other block. -/
structure Opens (body below : List Char) : Prop where
  whole : ∃ gap, '\n' :: body = gap ++ '\n' :: below ∧ ∀ c ∈ gap, Text.isBlank c = true
  bare : '\n' ∉ below.takeWhile Text.isBlank
  solid : Text.isBlankText below = false
  plain : Unbracketed below

theorem Opens.trim_append (opens : Opens body below) (rest : List Char) :
    Text.trim (body ++ rest) = Text.trim (below ++ rest) := by
  obtain ⟨gap, whole, blank⟩ := opens.whole
  have front : ∀ c ∈ gap ++ ['\n'], Text.isBlank c = true :=
    List.forall_mem_append.mpr ⟨blank, List.forall_mem_singleton.mpr (by decide)⟩
  have same : ['\n'] ++ (body ++ rest) = (gap ++ ['\n']) ++ (below ++ rest) := by
    rw [← List.append_assoc, List.singleton_append, whole]
    simp
  have newline : ∀ c ∈ ['\n'], Text.isBlank c = true :=
    List.forall_mem_singleton.mpr (by decide)
  rw [← Text.trim_append_of_blank newline, same, Text.trim_append_of_blank front]

theorem takeWhile_append_of_solid (solid : Text.isBlankText cs = false) (rest : List Char) :
    (cs ++ rest).takeWhile Text.isBlank = cs.takeWhile Text.isBlank := by
  induction cs with
  | nil => cases solid
  | cons c cs ih =>
      rw [List.cons_append]
      by_cases blank : Text.isBlank c = true
      · have later : Text.isBlankText cs = false := by
          rwa [Text.isBlankText, List.all_cons, blank, Bool.true_and] at solid
        rw [List.takeWhile_cons_of_pos blank, List.takeWhile_cons_of_pos blank, ih later]
      · rw [List.takeWhile_cons_of_neg blank, List.takeWhile_cons_of_neg blank]

theorem Opens.afterNewline?_append (opens : Opens body below) (rest : List Char) :
    afterNewline? ('\n' :: (body ++ rest)) = some (below ++ rest) := by
  obtain ⟨gap, whole, blank⟩ := opens.whole
  have bare : '\n' ∉ (below ++ rest).takeWhile Text.isBlank := by
    rw [takeWhile_append_of_solid opens.solid]
    exact opens.bare
  have same : '\n' :: (body ++ rest) = gap ++ '\n' :: (below ++ rest) := by
    rw [← List.cons_append, whole, List.append_assoc, List.cons_append]
  rw [same, Import.afterNewline?_append blank bare]

theorem Opens.not_blank (opens : Opens body below) : Text.isBlankText body = false := by
  have trimmed := opens.trim_append []
  rw [List.append_nil, List.append_nil] at trimmed
  rw [← Bool.not_eq_true, Text.isBlankText_iff, trimmed, ← Text.isBlankText_iff, opens.solid]
  exact Bool.false_ne_true

theorem Opens.trimEnd (opens : Opens body below) :
    Opens (Text.trimEnd body) (Text.trimEnd below) := by
  obtain ⟨gap, whole, blank⟩ := opens.whole
  have solid := opens.not_blank
  have kept : Text.isBlankText (Text.trimEnd below) = false := by
    rw [Text.isBlankText_trimEnd, opens.solid]
  constructor
  case whole =>
    refine ⟨gap, ?_, blank⟩
    have ends := congrArg Text.trimEnd whole
    rwa [← List.singleton_append, Text.trimEnd_append_of_solid _ solid, List.append_cons gap,
      Text.trimEnd_append_of_solid _ opens.solid, ← List.append_cons] at ends
  case bare =>
    obtain ⟨back, ends⟩ := Text.trimEnd_initial below
    rw [← takeWhile_append_of_solid kept back, ends]
    exact opens.bare
  case solid => exact kept
  case plain => exact opens.plain.prefix (Text.trimEnd_initial below)

/-- Without blanks before it, what is below the header is all that is not blank. -/
theorem exists_opens (solid : Text.isBlankText body = false)
    (plain : Unbracketed ('\n' :: body)) : ∃ below, Opens body below := by
  obtain ⟨gap, below, whole, blank, bare⟩ := exists_lastNewline (newline_mem_takeWhile body)
  refine ⟨below, ⟨gap, whole, blank⟩, bare, ?_, ?_⟩
  · rw [← Bool.not_eq_true, Text.isBlankText, List.all_eq_true]
    intro nothing
    have all : ∀ c ∈ '\n' :: body, Text.isBlank c = true := by
      rw [whole]
      exact List.forall_mem_append.mpr ⟨blank, List.forall_mem_cons.mpr ⟨by decide, nothing⟩⟩
    rw [Text.isBlankText, List.all_eq_true.mpr (List.forall_mem_cons.mp all).2] at solid
    cases solid
  · rw [whole] at plain
    exact plain.right_of_append.tail

theorem opens_append (blank : Text.isBlankText body = true) (head : SolidHead cs) (some : cs ≠ [])
    (plain : Unbracketed cs) : Opens (body ++ '\n' :: cs) cs := by
  obtain ⟨c, more, rfl⟩ := List.exists_cons_of_ne_nil some
  have visible : Text.isBlank c = false := head c rfl
  refine ⟨⟨'\n' :: body, rfl, ?_⟩, ?_, ?_, plain⟩
  · exact List.forall_mem_cons.mpr ⟨by decide, List.all_eq_true.mp blank⟩
  · rw [List.takeWhile_cons_of_neg (by simp [visible])]
    exact List.not_mem_nil
  · rw [Text.isBlankText, List.all_cons, visible, Bool.false_and]

end Bodies

end PromptCanvas.Import
