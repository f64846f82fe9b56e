import Mathlib.Data.Bool.AllAny
import PromptCanvas.Graph.Role
import PromptCanvas.Import.Dialects
import PromptCanvas.Proofs.Outline.RoundTrip
import PromptCanvas.Proofs.Text.Words

/-! # What the dialects read

Whatever dialect a text is read in, its steps are told by the text (`Told`): their
contents are not blank, and their roles are the user's or the lower case of a word of
the text that stands for a role in any case.  A text that is not blank and holds no JSON
graph is always read, as a chain of such steps (`read_eq_chain`).

A word may stand for a role without giving its name: the lower case of a foreign letter
is in no name (`isName_lower_iff`). -/

set_option autoImplicit false

namespace PromptCanvas.Import

open Text (foreignLetters)

section Roles

def StandsForRole (word : List Char) : Prop := word.map Text.fold ∈ roleWords

/-- A word that stands for a role gives the name of one exactly if it has no foreign letter. -/
theorem isName_lower_iff {word : List Char} (stands : StandsForRole word) :
    (∃ r : Role, String.ofList (Text.lower word) = r.name) ↔ ∀ c ∈ word, c ∉ foreignLetters := by
  constructor
  · rintro ⟨r, named⟩ c member foreign
    obtain ⟨d, kept, large⟩ := Text.exists_mem_lower member foreign
    have spelled : Text.lower word = r.name.toList := by rw [← named, String.toList_ofList]
    have ascii : (r.name.toList.all fun d => decide (d.toNat < 0x80)) = true := by
      cases r <;> decide
    have small := List.all_iff_forall_prop.mp ascii d (spelled ▸ kept)
    omega
  · intro plain
    have names : ∀ w ∈ roleWords, ∃ r ∈ Role.all, String.ofList w = r.name := by decide
    rw [Text.lower_eq_map_fold plain]
    obtain ⟨r, -, named⟩ := names _ stands
    exact ⟨r, named⟩

/-- The role is the user's, or it is the lower case of a word of the text that stands for
a role. -/
def GivesRole (cs : List Char) (role : String) : Prop :=
  role = "user" ∨
    ∃ word, word ⊆ cs ∧ StandsForRole word ∧ role = String.ofList (Text.lower word)

theorem GivesRole.of_subset {cs text : List Char} {role : String} (given : GivesRole cs role)
    (inside : cs ⊆ text) : GivesRole text role := by
  rcases given with user | ⟨word, part, stands, spelled⟩
  · exact .inl user
  · exact .inr ⟨word, List.Subset.trans part inside, stands, spelled⟩

theorem GivesRole.isName {cs : List Char} {role : String} (given : GivesRole cs role)
    (plain : ∀ c ∈ cs, c ∉ foreignLetters) : ∃ r : Role, role = r.name := by
  rcases given with rfl | ⟨word, part, stands, rfl⟩
  · exact ⟨.user, rfl⟩
  · exact (isName_lower_iff stands).mpr fun c member => plain c (part member)

/-- The text tells a step that is not blank, in a role that it gives. -/
structure Told (cs : List Char) (s : Step) : Prop where
  role : GivesRole cs s.role
  content : Text.trimmed s.content ≠ ""

theorem Told.of_subset {cs text : List Char} {s : Step} (told : Told cs s) (inside : cs ⊆ text) :
    Told text s := ⟨told.role.of_subset inside, told.content⟩

structure AllTold (cs : List Char) (steps : List Step) : Prop where
  nonempty : steps ≠ []
  told : ∀ s ∈ steps, Told cs s

theorem told_stepOf {cs word content : List Char} (part : word ⊆ cs) (stands : StandsForRole word)
    (some : Text.trimmed (String.ofList content) ≠ "") : Told cs (stepOf word content) :=
  ⟨.inr ⟨word, part, stands, rfl⟩, some⟩

end Roles

section Headers

theorem bracketed?_eq_some {words : List (List Char)} {cs number word rest : List Char}
    (found : bracketed? words cs = some (number, word, rest)) :
    word ⊆ cs ∧ rest ⊆ cs ∧ word.map Text.fold ∈ words := by
  unfold bracketed? at found
  split at found
  · next inner =>
      split at found
      · cases found
      · next digits after _ cut =>
          obtain ⟨⟨read, left⟩, reads, parts⟩ := Option.map_eq_some_iff.mp found
          obtain ⟨rfl, rfl, rfl⟩ : digits = number ∧ read = word ∧ left = rest := by
            simpa using parts
          obtain ⟨whole, listed⟩ := Text.oneOf?_eq_some reads
          rw [List.span_eq_takeWhile_dropWhile, Prod.mk.injEq] at cut
          have inside : read ++ left ⊆ '[' :: inner := by
            rw [← whole]
            have closed : ']' :: after ⊆ inner := cut.2 ▸ (List.dropWhile_suffix _).subset
            refine List.Subset.trans (List.dropWhile_suffix _).subset ?_
            exact List.subset_cons_of_subset _
              (List.Subset.trans (List.subset_cons_self ']' after) closed)
          exact ⟨List.Subset.trans (List.subset_append_left _ _) inside,
            List.Subset.trans (List.subset_append_right _ _) inside, listed⟩
      · cases found
  · cases found

end Headers

section Brackets

theorem blockHeader?_eq_some {line : List Char} {b : Block} (found : blockHeader? line = some b) :
    b.role ⊆ line ∧ StandsForRole b.role := by
  unfold blockHeader? at found
  split at found
  · next number word rest header =>
      obtain ⟨part, -, listed⟩ := bracketed?_eq_some header
      split at found
      · cases found
        exact ⟨part, List.mem_append_left _ listed⟩
      · cases found
  · cases found

theorem role_addLine (b : Block) (line : List Char) : (b.addLine line).role = b.role := by
  unfold Block.addLine
  split <;> rfl

/-- The role of a block is that of its header, which a line is or which came before the lines. -/
theorem role_of_mem_blocksFrom {lines : List (List Char)} :
    ∀ {current : Option Block} {b : Block}, b ∈ blocksFrom current lines →
      (∃ c ∈ current, b.role = c.role) ∨
        ∃ line ∈ lines, ∃ c, blockHeader? line = some c ∧ b.role = c.role := by
  induction lines with
  | nil =>
      intro current b member
      exact .inl ⟨b, Option.mem_toList.mp member, rfl⟩
  | cons line lines ih =>
      intro current b member
      have later : (∃ l ∈ lines, ∃ c, blockHeader? l = some c ∧ b.role = c.role) →
          ∃ l ∈ line :: lines, ∃ c, blockHeader? l = some c ∧ b.role = c.role :=
        fun ⟨l, listed, rest⟩ => ⟨l, List.mem_cons_of_mem _ listed, rest⟩
      rw [blocksFrom] at member
      split at member
      · next header found =>
          rcases List.mem_append.mp member with before | after
          · exact .inl ⟨b, Option.mem_toList.mp before, rfl⟩
          · rcases ih after with ⟨c, same, role⟩ | more
            · exact .inr ⟨line, List.mem_cons_self, c, Option.mem_def.mp same ▸ found, role⟩
            · exact .inr (later more)
      · rcases ih member with ⟨c, same, role⟩ | more
        · obtain ⟨d, held, rfl⟩ := Option.map_eq_some_iff.mp same
          exact .inl ⟨d, held, role.trans (role_addLine d line)⟩
        · exact .inr (later more)

theorem content_solid (b : Block) : Text.trimmed (String.ofList b.content) ≠ "" := by
  unfold Block.content
  split
  · exact Text.trimmed_ne_empty (c := 'N') (by decide) (by decide)
  · next some =>
      obtain ⟨child, more, children⟩ := List.exists_cons_of_ne_nil some
      refine Text.trimmed_ne_empty (c := '.') ?_ (by decide)
      rw [children, numberedChildren]
      cases numberedChildren (1 + 1) more <;> simp [List.intercalate_cons_cons]

theorem told_of_bracketBlocks {cs : List Char} {steps : List Step}
    (found : bracketBlocks cs = some steps) : AllTold cs steps := by
  unfold bracketBlocks at found
  split at found
  · cases found
  · next some =>
    cases found
    refine ⟨by simpa using some, List.forall_mem_map.mpr fun b member => ?_⟩
    rcases role_of_mem_blocksFrom member with ⟨c, none, -⟩ | ⟨line, listed, c, header, role⟩
    · cases none
    · obtain ⟨part, stands⟩ := blockHeader?_eq_some header
      rw [← role] at part stands
      exact told_stepOf (List.Subset.trans part (Outline.subset_of_mem_trimmedLines listed)) stands
        (content_solid b)

end Brackets

section NumberedOutline

theorem told_of_mem_outlineFrom {cs : List Char} {lines : List (List Char)} :
    ∀ {title : List Char} {s : Step}, s ∈ outlineFrom title lines → Told cs s := by
  induction lines with
  | nil =>
      intro title s member
      cases member
  | cons line lines ih =>
      intro title s member
      rw [outlineFrom] at member
      split at member
      · exact ih member
      · next number text found =>
          rcases List.mem_cons.mp member with rfl | later
          · obtain ⟨-, head, some⟩ := Outline.numbered?_eq_some found
            obtain ⟨c, kept, visible⟩ := Text.exists_visible (Text.trim_ne_nil head some)
            refine ⟨.inl rfl, Text.trimmed_ne_empty (c := c) ?_ visible⟩
            split
            · exact kept
            · exact List.mem_append_right _ kept
          · exact ih later

theorem told_of_numberedOutline {cs : List Char} {steps : List Step}
    (found : numberedOutline cs = some steps) : AllTold cs steps := by
  unfold numberedOutline at found
  split at found
  · cases found
  · next some =>
    cases found
    exact ⟨some, fun s member => told_of_mem_outlineFrom member⟩

end NumberedOutline

section RoleBlocks

theorem subset_of_afterNewline? {cs after : List Char} (found : afterNewline? cs = some after) :
    after ⊆ cs := by
  unfold afterNewline? at found
  rw [List.span_eq_takeWhile_dropWhile] at found
  dsimp only at found
  split at found
  · cases found
  · next kept _ _ cut =>
      cases found
      rw [List.span_eq_takeWhile_dropWhile, Prod.mk.injEq] at cut
      have front : kept.reverse ⊆ cs := by
        intro c member
        have inside := (List.takeWhile_prefix _).subset (cut.1 ▸ List.mem_reverse.mp member)
        exact (List.takeWhile_prefix _).subset (List.mem_reverse.mp inside)
      exact List.append_subset.mpr ⟨front, (List.dropWhile_suffix _).subset⟩

theorem roleHeader?_eq_some {cs word after : List Char}
    (found : roleHeader? cs = some (word, after)) :
    word ⊆ cs ∧ StandsForRole word ∧ after ⊆ cs := by
  unfold roleHeader? at found
  split at found
  · next number read rest header =>
      obtain ⟨part, left, stands⟩ := bracketed?_eq_some header
      obtain ⟨text, ends, pair⟩ := Option.map_eq_some_iff.mp found
      obtain ⟨rfl, rfl⟩ := Prod.mk.inj pair
      exact ⟨part, stands, List.Subset.trans (subset_of_afterNewline? ends) left⟩
  · cases found

theorem spanBody_append (cs : List Char) : (spanBody cs).1 ++ (spanBody cs).2 = cs := by
  induction cs with
  | nil => rfl
  | cons c cs ih =>
      rw [spanBody]
      split
      · rfl
      · exact congrArg (c :: ·) ih

theorem of_mem_roleBlocksFrom {n : Nat} : ∀ {cs : List Char} {b : List Char × List Char},
    b ∈ roleBlocksFrom n cs → b.1 ⊆ cs ∧ StandsForRole b.1 ∧ ∃ body, b.2 = Text.trim body := by
  induction n with
  | zero =>
      intro cs b member
      rw [roleBlocksFrom] at member
      cases member
  | succ n ih =>
      intro cs b member
      cases cs with
      | nil =>
          rw [roleBlocksFrom] at member
          · cases member
          · exact Nat.succ_ne_zero n
      | cons c rest =>
          rw [roleBlocksFrom] at member
          split at member
          · next word after header =>
              obtain ⟨part, stands, left⟩ := roleHeader?_eq_some header
              have beyond : (spanBody after).2 ⊆ after := by
                intro d inside
                rw [← spanBody_append after]
                exact List.mem_append_right _ inside
              rcases List.mem_cons.mp member with rfl | later
              · exact ⟨part, stands, _, rfl⟩
              · obtain ⟨inside, rest⟩ := ih later
                exact ⟨List.Subset.trans inside (List.Subset.trans beyond left), rest⟩
          · obtain ⟨inside, rest⟩ := ih member
            exact ⟨List.subset_cons_of_subset c inside, rest⟩

theorem told_of_roleBlocks {cs : List Char} {steps : List Step}
    (found : roleBlocks cs = some steps) : AllTold cs steps := by
  unfold roleBlocks at found
  dsimp only at found
  split at found
  · cases found
  · next some =>
    cases found
    refine ⟨by simpa using some, List.forall_mem_map.mpr fun b member => ?_⟩
    obtain ⟨listed, solid⟩ := List.mem_filter.mp member
    obtain ⟨part, stands, body, trimmed⟩ := of_mem_roleBlocksFrom listed
    rw [trimmed] at solid
    refine told_stepOf (List.Subset.trans part (Outline.trim_subset cs)) stands ?_
    rw [trimmed]
    exact Text.trimmed_ofList_trim (by simpa using solid)

end RoleBlocks

section RoleLines

theorem told_of_roleLine? {line : List Char} {s : Step} (found : roleLine? line = some s) :
    Told line s := by
  unfold roleLine? at found
  split at found
  · next word rest reads =>
      obtain ⟨whole, stands⟩ := Text.oneOf?_eq_some reads
      split at found
      · next text _ =>
          split at found
          · cases found
          · next some =>
              cases found
              refine told_stepOf ?_ stands (Text.trimmed_ofList_trim some)
              rw [whole]
              exact List.subset_append_left _ _
      · cases found
  · cases found

theorem told_of_roleLines {cs : List Char} {steps : List Step}
    (found : roleLines cs = some steps) : AllTold cs steps := by
  unfold roleLines at found
  split at found
  · cases found
  · next some =>
    cases found
    refine ⟨some, fun s member => ?_⟩
    obtain ⟨line, listed, reads⟩ := List.mem_filterMap.mp member
    exact (told_of_roleLine? reads).of_subset (Outline.subset_of_mem_trimmedLines listed)

end RoleLines

section Plain

theorem plainText_eq {cs : List Char} (some : Text.trim cs ≠ []) :
    plainText cs = .some [⟨"user", "User", String.ofList (Text.trim cs)⟩] := by
  unfold plainText
  split
  · next none => exact absurd none some
  · rfl

theorem told_of_plainText {cs : List Char} {steps : List Step}
    (found : plainText cs = some steps) : AllTold cs steps := by
  by_cases some : Text.trim cs = []
  · simp [plainText, some] at found
  · rw [plainText_eq some] at found
    cases found
    refine ⟨List.cons_ne_nil _ _, fun s member => ?_⟩
    rw [List.mem_singleton.mp member]
    exact ⟨.inl rfl, Text.trimmed_ofList_trim some⟩

end Plain

section Reading

/-- A text that is not blank is told in steps, if in no other dialect then as plain text. -/
theorem exists_told {cs : List Char} (solid : Text.trim cs ≠ []) :
    ∃ steps, told? cs = some steps ∧ AllTold cs steps := by
  have plain : ∃ steps, told? cs = some steps := by
    rw [← Option.isSome_iff_exists, told?, List.findSome?_isSome_iff]
    have last : dialects[4]? = some plainText := rfl
    refine ⟨plainText, List.mem_of_getElem? last, ?_⟩
    rw [plainText_eq solid]
    rfl
  obtain ⟨steps, found⟩ := plain
  refine ⟨steps, found, ?_⟩
  obtain ⟨dialect, listed, tells⟩ := List.exists_of_findSome?_eq_some found
  rcases List.mem_cons.mp listed with rfl | listed
  · exact told_of_bracketBlocks tells
  rcases List.mem_cons.mp listed with rfl | listed
  · exact told_of_numberedOutline tells
  rcases List.mem_cons.mp listed with rfl | listed
  · exact told_of_roleBlocks tells
  rcases List.mem_cons.mp listed with rfl | listed
  · exact told_of_roleLines tells
  obtain rfl := List.mem_singleton.mp listed
  exact told_of_plainText tells

/-- A text that is not blank and holds no JSON graph is read as a chain of steps that it tells. -/
theorem read_eq_chain {text : String} (solid : Text.trim text.toList ≠ [])
    (prose : jsonGraph (Text.trim text.toList) = .ok none) :
    ∃ steps, read text = .ok (some (Step.chain steps)) ∧
      AllTold (Text.trim text.toList) steps := by
  rw [← Text.trim_trim] at solid
  obtain ⟨steps, found, all⟩ := exists_told solid
  exact ⟨steps, by simp only [read, prose, found, Option.map_some], all⟩

end Reading

end PromptCanvas.Import
