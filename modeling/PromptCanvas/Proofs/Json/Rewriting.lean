import PromptCanvas.Proofs.Json.Edges

/-! # Rewriting JSON texts

A rewriting of texts that leaves every string and every scalar spelled as it was and takes blanks to
blanks leaves the whole value spelled (`Rewriting.spells`). -/

set_option autoImplicit false

namespace PromptCanvas.Json

def joints : List Char := ['[', ']', '\x7b', '\x7d', ':', ',']

/-- The end of one text or the beginning of the next is no blank. -/
def Parted (front back : List Char) : Prop :=
  (∀ c ∈ front.getLast?, isJsonSpace c = false) ∨ ∀ c ∈ back.head?, isJsonSpace c = false

structure Rewriting (strict : Bool) (f : List Char → List Char) : Prop where
  append : ∀ {front back}, Parted front back → f (front ++ back) = f front ++ f back
  mark : ∀ m ∈ joints, f [m] = [m]
  spaces : ∀ {gap}, Spaces gap → Spaces (f gap)
  scalar : ∀ {v cs}, SpellsScalar v cs → SpellsScalar v (f cs)
  string : ∀ {s cs}, SpellsString strict s cs → SpellsString strict s (f cs)

section Parting

variable {strict : Bool} {v : Json} {m : Char} {cs front : List Char}

theorem forall_joints {p : Char → Prop} :
    (∀ m ∈ joints, p m) ↔ p '[' ∧ p ']' ∧ p '\x7b' ∧ p '\x7d' ∧ p ':' ∧ p ',' := by
  simp [joints]

theorem solid_of_joint (joint : m ∈ joints) : isJsonSpace m = false :=
  (forall_joints (p := fun m => isJsonSpace m = false)).mpr (by decide) m joint

theorem parted_mark (joint : m ∈ joints) (front back : List Char) : Parted front (m :: back) := by
  refine .inr ?_
  rintro c ⟨⟩
  exact solid_of_joint joint

theorem BeginsValue.parted (begins : BeginsValue cs) (front : List Char) : Parted front cs := by
  obtain ⟨c, more, rfl, solid, -⟩ := begins
  refine .inr ?_
  rintro d ⟨⟩
  exact solid

theorem isJsonSpace_of_isPrinted {c : Char} (printed : Text.IsPrinted c) :
    isJsonSpace c = false := by
  rw [← Bool.not_eq_true]
  intro space
  have solid := printed.solid
  rw [isBlank_of_isJsonSpace space] at solid
  cases solid

theorem Spells.parted (spelled : Spells strict v cs) (back : List Char) : Parted cs back :=
  .inl fun c last => isJsonSpace_of_isPrinted (spelled.printed.2 c last)

theorem SpellsMember.parted {field : String × Json} (spelled : SpellsMember strict field cs)
    (back : List Char) : Parted cs back := by
  cases spelled with
  | @colon key v name cs before after named beforeSpaces afterSpaces value =>
      rcases value.parted back with last | head
      · obtain ⟨c, more, rfl, -⟩ := value.begins
        refine .inl fun d final => last d ?_
        simpa [List.getLast?_append, List.getLast?_cons] using final
      · exact .inr head

theorem beginsValue_quote (more : List Char) : BeginsValue ('"' :: more) :=
  ⟨'"', more, rfl, rfl, by decide, by decide, by decide⟩

theorem SpellsMembers.beginsValue {fields : List (String × Json)}
    (spelled : SpellsMembers strict fields cs) : BeginsValue cs := by
  obtain ⟨more, rfl⟩ := spelled.begins
  exact beginsValue_quote more

end Parting

namespace Rewriting

variable {strict : Bool} {f : List Char → List Char} (rewriting : Rewriting strict f)

include rewriting

theorem cons_joint {m : Char} (joint : m ∈ joints) (cs : List Char) : f (m :: cs) = m :: f cs := by
  have alone : Parted [m] cs := by
    refine .inl ?_
    rintro c ⟨⟩
    exact solid_of_joint joint
  rw [← List.singleton_append, rewriting.append alone, rewriting.mark m joint]
  rfl

theorem append_joint {m : Char} (joint : m ∈ joints) (front back : List Char) :
    f (front ++ m :: back) = f front ++ m :: f back := by
  rw [rewriting.append (parted_mark joint front back), rewriting.cons_joint joint]

theorem append_begins {cs : List Char} (begins : BeginsValue cs) (front : List Char) :
    f (front ++ cs) = f front ++ f cs := rewriting.append (begins.parted front)

theorem nil : f [] = [] := by
  have twice : f ([] ++ []) = f [] ++ f [] := rewriting.append (.inr nofun)
  simpa using twice

mutual

/-- The rewritten spelling spells the same value. -/
theorem spells : ∀ {v : Json} {cs : List Char}, Spells strict v cs → Spells strict v (f cs)
  | _, _, .scalar spelled => .scalar (rewriting.scalar spelled)
  | _, _, .string spelled => .string (rewriting.string spelled)
  | _, _, .noItems spaces => by
      rw [rewriting.cons_joint (by decide), rewriting.append_joint (by decide), rewriting.nil]
      exact .noItems (rewriting.spaces spaces)
  | _, _, .array spaces spelled => by
      rw [rewriting.cons_joint (by decide),
        rewriting.append_begins (spelled.begins.append _), rewriting.append_joint (by decide),
        rewriting.nil]
      exact .array (rewriting.spaces spaces) (spellsItems spelled)
  | _, _, .noFields spaces => by
      rw [rewriting.cons_joint (by decide), rewriting.append_joint (by decide), rewriting.nil]
      exact .noFields (rewriting.spaces spaces)
  | _, _, .object spaces spelled => by
      rw [rewriting.cons_joint (by decide),
        rewriting.append_begins (spelled.beginsValue.append _), rewriting.append_joint (by decide),
        rewriting.nil]
      exact .object (rewriting.spaces spaces) (spellsMembers spelled)

theorem spellsItems : ∀ {vs : List Json} {cs : List Char}, SpellsItems strict vs cs →
    SpellsItems strict vs (f cs)
  | _, _, .last spelled spaces => by
      rw [rewriting.append (spelled.parted _)]
      exact .last (spells spelled) (rewriting.spaces spaces)
  | _, _, .more spelled spaces nextSpaces others => by
      rw [rewriting.append (spelled.parted _), rewriting.append_joint (by decide),
        rewriting.append_begins others.begins]
      exact .more (spells spelled) (rewriting.spaces spaces) (rewriting.spaces nextSpaces)
        (spellsItems others)

theorem spellsMember : ∀ {field : String × Json} {cs : List Char},
    SpellsMember strict field cs → SpellsMember strict field (f cs)
  | _, _, .colon named before after spelled => by
      rw [rewriting.append ((Spells.string named).parted _), rewriting.append_joint (by decide),
        rewriting.append_begins spelled.begins]
      exact .colon (rewriting.string named) (rewriting.spaces before) (rewriting.spaces after)
        (spells spelled)

theorem spellsMembers : ∀ {fields : List (String × Json)} {cs : List Char},
    SpellsMembers strict fields cs → SpellsMembers strict fields (f cs)
  | _, _, .last spelled spaces => by
      rw [rewriting.append (spelled.parted _)]
      exact .last (spellsMember spelled) (rewriting.spaces spaces)
  | _, _, .more spelled spaces nextSpaces others => by
      rw [rewriting.append (spelled.parted _), rewriting.append_joint (by decide),
        rewriting.append_begins others.beginsValue]
      exact .more (spellsMember spelled) (rewriting.spaces spaces) (rewriting.spaces nextSpaces)
        (spellsMembers others)

end

theorem read {v : Json} {cs : List Char} (reading : read strict cs = .ok v) :
    Json.read strict (f cs) = .ok v := by
  obtain ⟨before, text, after, spaces, afterSpaces, spelled, rfl⟩ :=
    (read_eq_ok_iff strict cs v).mp reading
  refine (read_eq_ok_iff strict _ v).mpr ⟨f before, f text, f after, rewriting.spaces spaces,
    rewriting.spaces afterSpaces, rewriting.spells spelled, ?_⟩
  rw [rewriting.append_begins (spelled.begins.append after), rewriting.append (spelled.parted after)]

end Rewriting

end PromptCanvas.Json
