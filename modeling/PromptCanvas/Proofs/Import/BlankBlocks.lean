import PromptCanvas.Proofs.Import.Retelling
import PromptCanvas.Proofs.Import.RoleBlocks

/-! # Blocks with blank bodies

Text in blocks, each with a header, is read as it is written as long as no body is blank
(`roleBlocks_of_solid`).  A header takes the blanks below it up to the last newline, and the next
header needs a newline before it: where the body between the two is blank, there is none left, and
the second block is read as the body of the first.  And a last header with nothing but blanks
below it has no newline behind it once the text is trimmed, so that it goes on with the body before
it.  `merged` is what becomes of the blocks; it tells of other steps than the blocks themselves as
soon as one of several is blank (`roleBlocks_blocksText`). -/

set_option autoImplicit false

namespace PromptCanvas.Import

open Text (SolidHead SolidLast)

section Writing

structure RoleBlock where
  role : Role
  body : List Char
  deriving DecidableEq, Repr

namespace RoleBlock

def isBlank (b : RoleBlock) : Bool := Text.isBlankText b.body

def text (k : Nat) (b : RoleBlock) : List Char := headerLine k b.role ++ '\n' :: b.body

def step (b : RoleBlock) : Step := ⟨b.role.name, b.role.label, String.ofList (Text.trim b.body)⟩

/-- A block that goes on with the text of the one after it. -/
def followedBy (b : RoleBlock) (k : Nat) (c : RoleBlock) : RoleBlock :=
  ⟨b.role, b.body ++ '\n' :: c.text k⟩

end RoleBlock

def blocksText (k : Nat) (blocks : List RoleBlock) : List Char :=
  List.intercalate ['\n'] (blocks.mapIdx fun i b => b.text (k + i))

def told (blocks : List RoleBlock) : Option (List Step) :=
  match blocks.filter fun b => !b.isBlank with
  | [] => none
  | kept => some (kept.map RoleBlock.step)

/-- What becomes of some blocks: a blank body takes in the next block, and any body takes in a
last block that is blank. -/
def merged (k : Nat) (b : RoleBlock) : List RoleBlock → List RoleBlock
  | [] => [b]
  | c :: rest =>
      if b.isBlank || (c.isBlank && rest.isEmpty) then merged (k + 1) (b.followedBy k c) rest
      else b :: merged (k + 1) c rest

def following (k : Nat) : List RoleBlock → List Char
  | [] => []
  | c :: rest => '\n' :: (c.text k ++ following (k + 1) rest)

theorem blocksText_single (k : Nat) (b : RoleBlock) : blocksText k [b] = b.text k := by
  rw [blocksText, List.mapIdx_cons, List.mapIdx_nil, List.intercalate_singleton, Nat.add_zero]

theorem blocksText_cons_cons (k : Nat) (b c : RoleBlock) (blocks : List RoleBlock) :
    blocksText k (b :: c :: blocks) = b.text k ++ '\n' :: blocksText (k + 1) (c :: blocks) := by
  rw [blocksText, blocksText, List.mapIdx_cons, List.mapIdx_cons, List.mapIdx_cons,
    List.intercalate_cons_cons]
  simp only [Nat.add_zero, Nat.zero_add, Nat.add_assoc, Nat.add_comm 1]
  rw [List.append_assoc]
  rfl

theorem blocksText_cons (b : RoleBlock) (blocks : List RoleBlock) (k : Nat) :
    blocksText k (b :: blocks) = b.text k ++ following (k + 1) blocks := by
  induction blocks generalizing b k with
  | nil => rw [blocksText_single, following, List.append_nil]
  | cons c blocks ih => rw [blocksText_cons_cons, ih, following]

end Writing

section Reading

variable {b c : RoleBlock} {bs : List RoleBlock} {k : Nat}

def RoleBlock.found (b : RoleBlock) : List Char × List Char :=
  (b.role.heading.toList, Text.trim b.body)

theorem not_mem_newline_headerLine (k : Nat) (r : Role) : '\n' ∉ headerLine k r :=
  not_mem_headerLine (by decide) (by intro r; cases r <;> decide) r

theorem RoleBlock.unbracketed_text (k : Nat) (plain : Unbracketed ('\n' :: c.body)) :
    Unbracketed (c.text k) :=
  unbracketed_append (not_mem_newline_headerLine k c.role) plain

theorem RoleBlock.solidHead_text (k : Nat) (c : RoleBlock) (rest : List Char) :
    SolidHead (c.text k ++ rest) := by
  rintro d ⟨⟩
  decide

theorem RoleBlock.isBlankText_text (k : Nat) (c : RoleBlock) (rest : List Char) :
    Text.isBlankText (c.text k ++ rest) = false := rfl

theorem roleHeader?_bare (k : Nat) (r : Role) : roleHeader? (headerLine k r) = none := by
  have found := roleHeader?_headerLine k r []
  rwa [List.append_nil] at found

theorem blocksIn_headerLine (k : Nat) (r : Role) : blocksIn (headerLine k r) = [] := by
  have without : '[' ∉ Nat.toDigits 10 k ++ ']' :: ' ' :: r.heading.toList := by
    have digits : '[' ∉ Nat.toDigits 10 k := by
      intro member
      cases List.all_eq_true.mp (Numeral.all_isDigit_toDigits k) '[' member
    have word : '[' ∉ ']' :: ' ' :: r.heading.toList := by
      cases r <;> decide
    rw [List.mem_append]
    exact not_or.mpr ⟨digits, word⟩
  rw [headerLine, blocksIn_cons (roleHeader?_bare k r), blocksIn_of_not_mem without]

/-- Below a header stands what the body before the next header opens with. -/
theorem blocksIn_text_append {below rest : List Char} (opens : Opens b.body below)
    (other : ∀ c ∈ rest.head?, c ≠ '[') : blocksIn (b.text k ++ rest) =
      (b.role.heading.toList, Text.trim (b.body ++ (spanBody rest).1)) ::
        blocksIn (spanBody rest).2 := by
  have header : roleHeader? (b.text k ++ rest) =
      some (b.role.heading.toList, below ++ rest) := by
    rw [RoleBlock.text, List.append_assoc, roleHeader?_headerLine, List.cons_append,
      opens.afterNewline?_append, Option.map_some]
  rw [blocksIn_of_header header, spanBody_append_of_unbracketed opens.plain other,
    opens.trim_append]

theorem spanBody_text (k : Nat) (c : RoleBlock) (rest : List Char) :
    spanBody ('\n' :: (c.text k ++ rest)) = ([], '\n' :: (c.text k ++ rest)) := by
  obtain ⟨after, ends⟩ := exists_afterNewline? (c.body ++ rest)
  have header : (roleHeader? (c.text k ++ rest)).isSome = true := by
    rw [RoleBlock.text, List.append_assoc, roleHeader?_headerLine, List.cons_append, ends]
    rfl
  rw [spanBody, header]
  rfl

theorem spanBody_headerLine (k : Nat) (r : Role) :
    spanBody ('\n' :: headerLine k r) = ('\n' :: headerLine k r, []) := by
  have ending : ∀ c ∈ ([] : List Char).head?, c ≠ '[' := nofun
  have rest := spanBody_append_of_unbracketed
    (unbracketed_of_unbroken (not_mem_newline_headerLine k r)) ending
  rw [List.append_nil] at rest
  rw [spanBody, roleHeader?_bare, rest]
  simp [spanBody]

theorem isBlankText_following (k : Nat) (bs : List RoleBlock) :
    Text.isBlankText (following k bs) = bs.isEmpty := by
  cases bs <;> rfl

theorem trimEnd_append_text (blank : c.isBlank = true) (front : List Char) (k : Nat) :
    Text.trimEnd (front ++ c.text k) = front ++ headerLine k c.role := by
  have last : SolidLast (front ++ headerLine k c.role) :=
    Text.solidLast_append ((Text.trim_eq_self_iff _).mp (trim_headerLine k c.role)).2
      (List.cons_ne_nil _ _) front
  have below : Text.trimEnd ('\n' :: c.body) = [] :=
    List.rdropWhile_eq_nil_iff.mpr
      (List.forall_mem_cons.mpr ⟨by decide, List.all_eq_true.mp blank⟩)
  rw [RoleBlock.text, ← List.append_assoc, Text.trimEnd_append last, below, List.append_nil]

theorem blocksIn_last (opening : b.isBlank = true ∨ ∃ below, Opens b.body below) (k : Nat) :
    blocksIn (Text.trimEnd (b.text k)) =
      ([b].filter fun m => !m.isBlank).map RoleBlock.found := by
  rcases opening with blank | ⟨below, opens⟩
  · have bare := trimEnd_append_text blank [] k
    rw [List.nil_append, List.nil_append] at bare
    rw [bare, blocksIn_headerLine, List.filter_singleton, blank]
    rfl
  · have solid := opens.not_blank
    have cut : Text.trimEnd (b.text k) = RoleBlock.text k ⟨b.role, Text.trimEnd b.body⟩ := by
      rw [RoleBlock.text, List.append_cons, Text.trimEnd_append_of_solid _ solid, ← List.append_cons]
      rfl
    have ending : ∀ c ∈ ([] : List Char).head?, c ≠ '[' := nofun
    have read := blocksIn_text_append (b := ⟨b.role, Text.trimEnd b.body⟩) (k := k) opens.trimEnd
      ending
    simp only [spanBody, List.append_nil, Text.trim_trimEnd] at read
    rw [cut, read, List.filter_singleton, RoleBlock.isBlank, solid]
    rfl

theorem blocksIn_blank_last {below : List Char} (opens : Opens b.body below)
    (blank : c.isBlank = true) (j k : Nat) :
    blocksIn (Text.trimEnd (b.text j ++ '\n' :: c.text k)) = [(b.followedBy k c).found] := by
  have cut := trimEnd_append_text blank (b.text j ++ ['\n']) k
  have joined := trimEnd_append_text blank (b.body ++ ['\n']) k
  simp only [List.append_assoc, List.singleton_append] at cut joined
  rw [cut, blocksIn_text_append opens (by rintro d ⟨⟩; decide), spanBody_headerLine, ← joined,
    Text.trim_trimEnd]
  rfl

/-- A body that is not blank ends before a header with something below it. -/
theorem blocksIn_following_cons {below rest : List Char} (opens : Opens b.body below)
    (more : Text.isBlankText (c.body ++ rest) = false) (j k : Nat) :
    blocksIn (Text.trimEnd (b.text j ++ '\n' :: (c.text k ++ rest))) =
      b.found :: blocksIn (Text.trimEnd (c.text k ++ rest)) := by
  have cut : Text.trimEnd (c.text k ++ rest) =
      headerLine k c.role ++ '\n' :: Text.trimEnd (c.body ++ rest) := by
    rw [RoleBlock.text, List.append_cons, List.append_assoc, Text.trimEnd_append_of_solid _ more,
      ← List.append_cons]
  have whole : Text.trimEnd (b.text j ++ '\n' :: (c.text k ++ rest)) =
      b.text j ++ '\n' :: Text.trimEnd (c.text k ++ rest) := by
    rw [List.append_cons, Text.trimEnd_append_of_solid _ (RoleBlock.isBlankText_text k c rest),
      ← List.append_cons]
  have next := spanBody_text k ⟨c.role, Text.trimEnd (c.body ++ rest)⟩ []
  rw [List.append_nil, RoleBlock.text, ← cut] at next
  rw [whole, blocksIn_text_append opens (by rintro d ⟨⟩; decide), next, List.append_nil,
    blocksIn_cons_of_ne (by decide)]
  rfl

/-- The blocks that are found in a text are what the written blocks become. -/
theorem blocksIn_following (plain : ∀ c ∈ bs, Unbracketed ('\n' :: c.body)) : ∀ {b j k},
    (b.isBlank = true ∨ ∃ below, Opens b.body below) →
      blocksIn (Text.trimEnd (b.text j ++ following k bs)) =
        ((merged k b bs).filter fun m => !m.isBlank).map RoleBlock.found := by
  induction bs with
  | nil =>
      intro b j k opening
      rw [following, List.append_nil, merged, blocksIn_last opening]
  | cons c rest ih =>
      intro b j k opening
      obtain ⟨own, others⟩ := List.forall_mem_cons.mp plain
      have text : b.text j ++ following k (c :: rest) =
          (b.followedBy k c).text j ++ following (k + 1) rest := by
        simp [following, RoleBlock.text, RoleBlock.followedBy]
      rw [merged]
      by_cases blank : b.isBlank = true
      · have opens := opens_append blank (c.solidHead_text k []) (by simp [RoleBlock.text])
          (by simpa using RoleBlock.unbracketed_text k own)
        rw [List.append_nil] at opens
        rw [blank, Bool.true_or, if_pos rfl, text]
        exact ih others (.inr ⟨_, opens⟩)
      · obtain ⟨below, opens⟩ := opening.resolve_left blank
        rw [Bool.not_eq_true] at blank
        rw [blank, Bool.false_or, following]
        split
        · next ending =>
            obtain ⟨last, none⟩ := Bool.and_eq_true_iff.mp ending
            have solid : (b.followedBy k c).isBlank = false := by
              rw [RoleBlock.isBlank, RoleBlock.followedBy, Text.isBlankText_append, ← RoleBlock.isBlank,
                blank, Bool.false_and]
            rw [List.isEmpty_iff.mp none, following, List.append_nil, merged,
              blocksIn_blank_last opens last, List.filter_singleton, solid]
            rfl
        · next going =>
            have more : Text.isBlankText (c.body ++ following (k + 1) rest) = false := by
              rw [Text.isBlankText_append, ← RoleBlock.isBlank, isBlankText_following]
              exact Bool.eq_false_iff.mpr going
            have next : c.isBlank = true ∨ ∃ below, Opens c.body below := by
              by_cases empty : c.isBlank = true
              · exact .inl empty
              · exact .inr (exists_opens (Bool.eq_false_iff.mpr empty) own)
            rw [blocksIn_following_cons opens more, ih others next, List.filter_cons, blank]
            rfl

theorem roleBlocks_text (plain : ∀ c ∈ b :: bs, Unbracketed ('\n' :: c.body)) :
    roleBlocks (blocksText 1 (b :: bs)) = told (merged 2 b bs) := by
  obtain ⟨own, others⟩ := List.forall_mem_cons.mp plain
  have opening : b.isBlank = true ∨ ∃ below, Opens b.body below := by
    by_cases empty : b.isBlank = true
    · exact .inl empty
    · exact .inr (exists_opens (Bool.eq_false_iff.mpr empty) own)
  have trimmed : Text.trim (blocksText 1 (b :: bs)) =
      Text.trimEnd (b.text 1 ++ following 2 bs) := by
    rw [blocksText_cons, Text.trim, Text.trimStart,
      Text.dropWhile_eq_self_of_solidHead (b.solidHead_text 1 _)]
  have blocks := blocksIn_following others (j := 1) (k := 2) opening
  have kept : (((merged 2 b bs).filter fun m => !m.isBlank).map RoleBlock.found).filter
      (fun f => !f.2.isEmpty) = ((merged 2 b bs).filter fun m => !m.isBlank).map RoleBlock.found := by
    rw [List.filter_eq_self]
    intro f member
    obtain ⟨m, listed, rfl⟩ := List.mem_map.mp member
    rw [RoleBlock.found, Text.isEmpty_trim]
    exact (List.mem_filter.mp listed).2
  rw [roleBlocks_eq, trimmed, blocks, kept, told]
  cases (merged 2 b bs).filter fun m => !m.isBlank with
  | nil => rfl
  | cons m ms => simp [RoleBlock.found, RoleBlock.step, stepOf_heading]

end Reading

section Losses

variable {b : RoleBlock} {bs : List RoleBlock}

theorem merged_of_solid (solid : ∀ c ∈ b :: bs, c.isBlank = false) :
    ∀ k, merged k b bs = b :: bs := by
  induction bs generalizing b with
  | nil => exact fun _ => rfl
  | cons c bs ih =>
      intro k
      obtain ⟨own, others⟩ := List.forall_mem_cons.mp solid
      have next : c.isBlank = false := others c List.mem_cons_self
      rw [merged, own, next, ih others]
      rfl

theorem roleBlocks_of_solid {blocks : List RoleBlock} (nonempty : blocks ≠ [])
    (solid : ∀ b ∈ blocks, b.isBlank = false)
    (plain : ∀ b ∈ blocks, Unbracketed ('\n' :: b.body)) :
    roleBlocks (blocksText 1 blocks) = some (blocks.map RoleBlock.step) := by
  obtain ⟨b, bs, rfl⟩ := List.exists_cons_of_ne_nil nonempty
  have kept : ((b :: bs).filter fun m => !m.isBlank) = b :: bs :=
    List.filter_eq_self.mpr fun m member => by rw [solid m member]; rfl
  rw [roleBlocks_text plain, merged_of_solid solid, told, kept]

theorem exists_mem_merged (bs : List RoleBlock) :
    ∀ (b : RoleBlock) (k : Nat), ∃ m ∈ merged k b bs, b.body ⊆ m.body := by
  induction bs with
  | nil => exact fun b k => ⟨b, List.mem_cons_self, List.Subset.refl _⟩
  | cons c bs ih =>
      intro b k
      rw [merged]
      split
      · obtain ⟨m, member, inside⟩ := ih (b.followedBy k c) (k + 1)
        exact ⟨m, member, List.Subset.trans (List.subset_append_left _ _) inside⟩
      · exact ⟨b, List.mem_cons_self, List.Subset.refl _⟩

theorem exists_bracket_of_blank (bs : List RoleBlock) : ∀ (b : RoleBlock) (k : Nat), bs ≠ [] →
    (∃ c ∈ b :: bs, c.isBlank = true) → ∃ m ∈ merged k b bs, '[' ∈ m.body := by
  induction bs with
  | nil => exact fun _ _ more => absurd rfl more
  | cons c bs ih =>
      rintro b k - ⟨a, listed, blank⟩
      rw [merged]
      split
      · obtain ⟨m, member, inside⟩ := exists_mem_merged bs (b.followedBy k c) (k + 1)
        refine ⟨m, member, inside ?_⟩
        simp [RoleBlock.followedBy, RoleBlock.text, headerLine]
      · next apart =>
          rw [Bool.or_eq_true, not_or] at apart
          have later : a ∈ c :: bs := (List.mem_cons.mp listed).resolve_left fun same =>
            apart.1 (same ▸ blank)
          have more : bs ≠ [] := by
            rintro rfl
            rw [List.mem_singleton.mp later] at blank
            exact apart.2 (by rw [blank]; rfl)
          obtain ⟨m, member, bracket⟩ := ih c (k + 1) more ⟨a, later, blank⟩
          exact ⟨m, List.mem_cons_of_mem _ member, bracket⟩

theorem getD_told (blocks : List RoleBlock) :
    (told blocks).getD [] = (blocks.filter fun b => !b.isBlank).map RoleBlock.step := by
  rw [told]
  cases blocks.filter fun b => !b.isBlank <;> rfl

theorem told_eq_none_iff (blocks : List RoleBlock) :
    told blocks = none ↔ ∀ b ∈ blocks, b.isBlank = true := by
  have nothing : told blocks = none ↔ blocks.filter (fun b => !b.isBlank) = [] := by
    rw [told]
    cases blocks.filter fun b => !b.isBlank <;> simp
  rw [nothing, List.filter_eq_nil_iff]
  simp

theorem RoleBlock.isBlank_of_mem {m : RoleBlock} {c : Char} (member : c ∈ m.body)
    (visible : Text.isBlank c = false) : m.isBlank = false := by
  rw [RoleBlock.isBlank, ← Text.isEmpty_trim, List.isEmpty_eq_false_iff]
  exact List.ne_nil_of_mem (Text.mem_trim member visible)

theorem exists_solid_of_mem_merged (more : bs ≠ []) (k : Nat) :
    ∃ m ∈ merged k b bs, m.isBlank = false := by
  by_cases blank : ∃ c ∈ b :: bs, c.isBlank = true
  · obtain ⟨m, listed, bracket⟩ := exists_bracket_of_blank bs b k more blank
    exact ⟨m, listed, RoleBlock.isBlank_of_mem bracket (by decide)⟩
  · have solid : ∀ c ∈ b :: bs, c.isBlank = false := by simpa using blank
    rw [merged_of_solid solid]
    exact ⟨b, List.mem_cons_self, solid b List.mem_cons_self⟩

theorem told_merged_ne (plain : ∀ c ∈ b :: bs, '[' ∉ c.body) {k : Nat}
    (taken : ∃ m ∈ merged k b bs, '[' ∈ m.body) : told (merged k b bs) ≠ told (b :: bs) := by
  intro same
  obtain ⟨m, listed, bracket⟩ := taken
  have visible := Text.mem_trim bracket (by decide)
  have solid := RoleBlock.isBlank_of_mem bracket (by decide)
  have told : m.step ∈ (told (merged k b bs)).getD [] := by
    rw [getD_told]
    exact List.mem_map_of_mem (List.mem_filter.mpr ⟨listed, by rw [solid]; rfl⟩)
  rw [same, getD_told] at told
  obtain ⟨c, kept, steps⟩ := List.mem_map.mp told
  have contents : Text.trim c.body = Text.trim m.body :=
    String.ofList_injective (congrArg Step.content steps)
  rw [← contents] at visible
  exact plain c (List.mem_filter.mp kept).1 (Outline.trim_subset _ visible)

/-- Text in blocks is read as what its blocks become.  That is its blocks that are not blank only
if none is blank or there is but one, and it is nothing only for a single blank one. -/
theorem roleBlocks_blocksText {b : RoleBlock} {bs : List RoleBlock}
    (plain : ∀ c ∈ b :: bs, '[' ∉ c.body) :
    roleBlocks (blocksText 1 (b :: bs)) = told (merged 2 b bs) ∧
    (roleBlocks (blocksText 1 (b :: bs)) = told (b :: bs) ↔
      bs = [] ∨ ∀ c ∈ b :: bs, c.isBlank = false) ∧
    (roleBlocks (blocksText 1 (b :: bs)) = none ↔ bs = [] ∧ b.isBlank = true) := by
  have read : roleBlocks (blocksText 1 (b :: bs)) = told (merged 2 b bs) :=
    roleBlocks_text fun c listed => unbracketed_of_not_mem
      (List.mem_cons.not.mpr (not_or.mpr ⟨by decide, plain c listed⟩))
  rw [read]
  refine ⟨rfl, ?_, ?_⟩
  · constructor
    · intro same
      by_contra! apart
      obtain ⟨more, c, listed, blank⟩ := apart
      exact told_merged_ne plain
        (exists_bracket_of_blank bs b 2 more ⟨c, listed, Bool.not_eq_false _ ▸ blank⟩) same
    · rintro (rfl | solid)
      · rfl
      · rw [merged_of_solid solid]
  · constructor
    · intro none
      have blank := (told_eq_none_iff _).mp none
      have single : bs = [] := by
        by_contra more
        obtain ⟨m, listed, solid⟩ := exists_solid_of_mem_merged (b := b) more 2
        rw [blank m listed] at solid
        cases solid
      subst single
      exact ⟨rfl, blank b List.mem_cons_self⟩
    · rintro ⟨rfl, blank⟩
      exact (told_eq_none_iff _).mpr (List.forall_mem_singleton.mpr blank)

theorem roleBlocks_blocksText_pair :
    (∀ c ∈ [(⟨.system, "Be brief.".toList⟩ : RoleBlock), ⟨.condition, " \nraining?\n".toList⟩],
      '[' ∉ c.body) ∧
    roleBlocks (blocksText 1 [⟨.system, "Be brief.".toList⟩, ⟨.condition, " \nraining?\n".toList⟩]) =
      some [⟨"system", "System", "Be brief."⟩, ⟨"condition", "Condition", "raining?"⟩] := by
  have plain : ∀ c ∈ [(⟨.system, "Be brief.".toList⟩ : RoleBlock),
      ⟨.condition, " \nraining?\n".toList⟩], '[' ∉ c.body := by decide
  refine ⟨plain, ((roleBlocks_blocksText plain).2.1.mpr (.inr (by decide +kernel))).trans ?_⟩
  decide +kernel

/-- A blank body is not dropped but takes in the block after it. -/
theorem roleBlocks_blank_body :
    (∀ c ∈ [(⟨.system, []⟩ : RoleBlock), ⟨.user, "hi".toList⟩], '[' ∉ c.body) ∧
    blocksText 1 [⟨.system, []⟩, ⟨.user, "hi".toList⟩] = "[1] SYSTEM\n\n[2] USER\nhi".toList ∧
    told [⟨.system, []⟩, ⟨.user, "hi".toList⟩] = some [⟨"user", "User", "hi"⟩] ∧
    roleBlocks (blocksText 1 [⟨.system, []⟩, ⟨.user, "hi".toList⟩]) =
      some [⟨"system", "System", "[2] USER\nhi"⟩] := by
  refine ⟨by decide, ?_, ?_, ?_⟩ <;> decide +kernel

end Losses

end PromptCanvas.Import
