import PromptCanvas.Proofs.Json.Zones

/-! # Backslashes put into strings

`Piece`: a text into which pairs of a backslash and a character were put, character by
character and pair by pair.  Where the pairs stand inside of strings (`Placed`) and their
characters make no escape, the text without them is a spelling only if the text with their
backslashes doubled is one (`Spells.mended`). -/

set_option autoImplicit false

namespace PromptCanvas.Json

open Document (isEscapable)
open Zone (outside inside)

/-- A character of a text, or a pair of a backslash and a character that was put into it. -/
inductive Piece where
  | kept (c : Char)
  | pair (c : Char)
  deriving DecidableEq

namespace Piece

section Texts

variable {ps : List Piece}

def original (ps : List Piece) : List Char :=
  ps.filterMap fun
    | .kept c => some c
    | .pair _ => none

/-- The text with the pairs as they are. -/
def marred (ps : List Piece) : List Char :=
  ps.flatMap fun
    | .kept c => [c]
    | .pair c => ['\\', c]

/-- The text with the pairs as JSON spells them. -/
def mended (ps : List Piece) : List Char :=
  ps.flatMap fun
    | .kept c => [c]
    | .pair c => ['\\', '\\', c]

/-- A printed ASCII character or a blank that makes no escape with a backslash. -/
def IsStray (c : Char) : Prop := 0x20 ≤ c.toNat ∧ c.toNat < 0x7f ∧ isEscapable c = false

instance (c : Char) : Decidable (IsStray c) :=
  inferInstanceAs (Decidable (0x20 ≤ c.toNat ∧ c.toNat < 0x7f ∧ isEscapable c = false))

/-- Every pair stands inside of a string and not in an escape. -/
def Placed : Zone → List Piece → Prop
  | _, [] => True
  | z, .kept c :: ps => Placed (z.next c) ps
  | z, .pair c :: ps => z = .inside ∧ IsStray c ∧ Placed z ps

instance decidablePlaced : ∀ (z : Zone) (ps : List Piece), Decidable (Placed z ps)
  | _, [] => isTrue trivial
  | z, .kept c :: ps => decidablePlaced (z.next c) ps
  | z, .pair c :: ps =>
      have := decidablePlaced z ps
      inferInstanceAs (Decidable (z = .inside ∧ IsStray c ∧ Placed z ps))

@[simp]
theorem original_kept (c : Char) (ps : List Piece) :
    original (.kept c :: ps) = c :: original ps := rfl

@[simp]
theorem original_pair (c : Char) (ps : List Piece) : original (.pair c :: ps) = original ps := rfl

@[simp]
theorem original_append (ps qs : List Piece) : original (ps ++ qs) = original ps ++ original qs :=
  List.filterMap_append

@[simp]
theorem marred_append (ps qs : List Piece) : marred (ps ++ qs) = marred ps ++ marred qs :=
  List.flatMap_append

@[simp]
theorem mended_append (ps qs : List Piece) : mended (ps ++ qs) = mended ps ++ mended qs :=
  List.flatMap_append

@[simp]
theorem marred_kept (c : Char) (ps : List Piece) : marred (.kept c :: ps) = c :: marred ps := rfl

@[simp]
theorem marred_pair (c : Char) (ps : List Piece) :
    marred (.pair c :: ps) = '\\' :: c :: marred ps := rfl

@[simp]
theorem mended_pair (c : Char) (ps : List Piece) :
    mended (.pair c :: ps) = '\\' :: '\\' :: c :: mended ps := rfl

@[simp]
theorem mended_kept (c : Char) (ps : List Piece) : mended (.kept c :: ps) = c :: mended ps := rfl

@[simp]
theorem original_map (cs : List Char) : original (cs.map .kept) = cs := by
  induction cs with
  | nil => rfl
  | cons c cs ih => rw [List.map_cons, original_kept, ih]

@[simp]
theorem marred_map (cs : List Char) : marred (cs.map .kept) = cs := by
  induction cs with
  | nil => rfl
  | cons c cs ih => rw [List.map_cons, marred_kept, ih]

@[simp]
theorem mended_map (cs : List Char) : mended (cs.map .kept) = cs := by
  induction cs with
  | nil => rfl
  | cons c cs ih => rw [List.map_cons, mended_kept, ih]

end Texts

section Places

variable {z : Zone} {ps qs : List Piece} {cs front back : List Char} {c : Char}

theorem placed_append :
    Placed z (ps ++ qs) ↔ Placed z ps ∧ Placed (z.after (original ps)) qs := by
  induction ps generalizing z with
  | nil => exact iff_and_self.mpr fun _ => trivial
  | cons p ps ih =>
      cases p with
      | kept c => exact ih
      | pair c => rw [List.cons_append, Placed, Placed, original_pair, ih, and_assoc, and_assoc]

theorem Placed.split (placed : Placed z ps) (text : original ps = front ++ back) :
    ∃ p q, ps = p ++ q ∧ original p = front ∧ original q = back ∧ Placed z p ∧
      Placed (z.after front) q := by
  obtain ⟨p, q, rfl, rfl, rfl⟩ := List.filterMap_eq_append_iff.mp text
  exact ⟨p, q, rfl, rfl, rfl, placed_append.mp placed⟩

def Leads (ps : List Piece) : Prop := ∀ c more, ps ≠ .pair c :: more

theorem Placed.leads (placed : Placed z ps) (elsewhere : z ≠ .inside) : Leads ps := by
  rintro c more rfl
  exact elsewhere placed.1

theorem Leads.uncons (leads : Leads ps) (placed : Placed z ps) (text : original ps = c :: cs) :
    ∃ rest, ps = .kept c :: rest ∧ original rest = cs ∧ Placed (z.next c) rest := by
  cases ps with
  | nil => cases text
  | cons p ps =>
      cases p with
      | kept d =>
          obtain ⟨rfl, rfl⟩ := List.cons.inj text
          exact ⟨ps, rfl, rfl, placed⟩
      | pair d => exact absurd rfl (leads d ps)

theorem Leads.eq_nil (leads : Leads ps) (text : original ps = []) : ps = [] := by
  cases ps with
  | nil => rfl
  | cons p ps =>
      cases p with
      | kept d => cases text
      | pair d => exact absurd rfl (leads d ps)

/-- Elsewhere than inside of a string the next piece is the next character. -/
theorem Placed.uncons (placed : Placed z ps) (elsewhere : z ≠ .inside)
    (text : original ps = c :: cs) :
    ∃ rest, ps = .kept c :: rest ∧ original rest = cs ∧ Placed (z.next c) rest :=
  (placed.leads elsewhere).uncons placed text

theorem Placed.bare (placed : Placed .outside ps) (text : original ps = front)
    (bare : ∀ c ∈ front, Zone.IsBare c) : ps = front.map .kept := by
  induction front generalizing ps with
  | nil => exact (placed.leads (by decide)).eq_nil text
  | cons c front ih =>
      obtain ⟨stays, more⟩ := List.forall_mem_cons.mp bare
      obtain ⟨rest, rfl, text, placed⟩ := placed.uncons (by decide) text
      rw [stays] at placed
      rw [ih placed text more, List.map_cons]

theorem Placed.digits (ds : List Char) (left : Nat) (placed : Placed (.digits left) ps)
    (text : original ps = ds ++ back) (count : ds.length = left + 1)
    (hexadecimal : ∀ c ∈ ds, (Text.hexValue? c).isSome = true) :
    ∃ rest, mended ps = ds ++ mended rest ∧ original rest = back ∧ Placed .inside rest := by
  induction ds generalizing ps left with
  | nil => cases count
  | cons d ds ih =>
      obtain ⟨digit, more⟩ := List.forall_mem_cons.mp hexadecimal
      obtain ⟨rest, rfl, text, placed⟩ := placed.uncons (by simp) text
      cases left with
      | zero =>
          rw [List.length_eq_zero_iff.mp (Nat.succ.inj count)] at text ⊢
          have last : Zone.next (.digits 0) d = .inside := by
            simp [Zone.next, Option.isNone_eq_false_iff.mpr digit]
          exact ⟨rest, rfl, text, last ▸ placed⟩
      | succ left =>
          have next : Zone.next (.digits (left + 1)) d = .digits left := by
            simp [Zone.next, Option.isNone_eq_false_iff.mpr digit]
          rw [next] at placed
          obtain ⟨rest, same, text, placed⟩ := ih left placed text (Nat.succ.inj count) more
          exact ⟨rest, congrArg (d :: ·) same, text, placed⟩

theorem Placed.skip (placed : Placed .outside ps) (text : original ps = front ++ back)
    (bare : ∀ c ∈ front, Zone.IsBare c) :
    ∃ rest, ps = front.map .kept ++ rest ∧ original rest = back ∧ Placed .outside rest := by
  obtain ⟨p, rest, rfl, first, last, placed, behind⟩ := placed.split text
  rw [Zone.after_bare bare] at behind
  exact ⟨rest, by rw [placed.bare first bare], last, behind⟩

/-- The pairs before the closing mark of a string are pairs of the string. -/
theorem Placed.unquote (placed : Placed .inside ps) (text : original ps = front ++ ['"'])
    (whole : inside.after front = .inside) :
    ∃ body, ps = body ++ [.kept '"'] ∧ original body = front ∧ Placed .inside body := by
  rcases List.eq_nil_or_concat ps with rfl | ⟨body, last, rfl⟩
  · exact absurd text (by simp [original])
  · rw [List.concat_eq_append] at placed text ⊢
    obtain ⟨inner, final⟩ := placed_append.mp placed
    rw [original_append] at text
    cases last with
    | kept c =>
        obtain ⟨rfl, same⟩ := List.append_inj' text rfl
        cases same
        exact ⟨body, rfl, rfl, inner⟩
    | pair c =>
        have closed : inside.after (original body) = .outside := by
          have same : original body = front ++ ['"'] := by
            simpa [original] using text
          rw [same, Zone.after_append, whole]
          rfl
        exact absurd (final.1.symm.trans closed) (by decide)

theorem IsStray.plain (strict : Bool) (stray : IsStray c) :
    c ≠ '"' ∧ c ≠ '\\' ∧ (strict && decide (c.toNat < 0x20)) = false := by
  obtain ⟨low, -, other⟩ := stray
  refine ⟨?_, ?_, by simp [low]⟩
  · rintro rfl
    exact absurd other (by decide)
  · rintro rfl
    exact absurd other (by decide)

end Places

end Piece

section Spelling

open Piece

variable {strict : Bool} {ps : List Piece}

/-- It is enough to spell the texts that do not begin with a pair. -/
theorem spells_of_leads {cs : List Char}
    (lead : ∀ ps, original ps = cs → Placed .inside ps → Leads ps →
      ∃ literal, SpellsUnits strict literal (mended ps)) (ps : List Piece)
    (text : original ps = cs) (placed : Placed .inside ps) :
    ∃ literal, SpellsUnits strict literal (mended ps) := by
  induction ps with
  | nil => exact lead [] text placed fun _ _ => nofun
  | cons p ps ih =>
      cases p with
      | kept c => exact lead _ text placed fun _ _ => nofun
      | pair c =>
          obtain ⟨literal, more⟩ := ih text placed.2.2
          obtain ⟨noQuote, noEscape, allowed⟩ := placed.2.1.plain strict
          have backslash : simpleEscape? '\\' = some '\\' := rfl
          exact ⟨_, .simple backslash (.plain noQuote noEscape allowed more)⟩

/-- Inside of a string every doubled pair spells a backslash and its character. -/
theorem SpellsUnits.mended {units : List Nat} {cs : List Char}
    (spelled : SpellsUnits strict units cs) : ∀ ps, original ps = cs → Placed .inside ps →
      ∃ literal, SpellsUnits strict literal (mended ps) := by
  induction spelled with
  | nil =>
      refine spells_of_leads fun ps text placed leads => ?_
      rw [leads.eq_nil text]
      exact ⟨[], .nil⟩
  | plain noQuote noEscape allowed _ ih =>
      refine spells_of_leads fun ps text placed leads => ?_
      obtain ⟨rest, rfl, text, placed⟩ := leads.uncons placed text
      obtain ⟨literal, more⟩ := ih rest text (by simpa [Zone.next, noQuote, noEscape] using placed)
      exact ⟨_, .plain noQuote noEscape allowed more⟩
  | simple escape _ ih =>
      obtain ⟨escapable, noUnicode⟩ := isEscapable_of_simpleEscape? escape
      refine spells_of_leads fun ps text placed leads => ?_
      obtain ⟨rest, rfl, text, placed⟩ := leads.uncons placed text
      obtain ⟨rest, rfl, text, placed⟩ := placed.uncons (by decide) text
      obtain ⟨literal, more⟩ :=
        ih rest text (by simpa [Zone.next, escapable, noUnicode] using placed)
      exact ⟨_, .simple escape more⟩
  | unicode digits _ ih =>
      refine spells_of_leads fun ps text placed leads => ?_
      obtain ⟨rest, rfl, text, placed⟩ := leads.uncons placed text
      obtain ⟨rest, rfl, text, placed⟩ := placed.uncons (by decide) text
      obtain ⟨rest, same, text, placed⟩ := Placed.digits [_, _, _, _] 3 placed text rfl
        (Text.isSome_hexValue?_of_hexNumber? digits)
      obtain ⟨literal, more⟩ := ih rest text placed
      rw [mended_kept, mended_kept, same]
      exact ⟨_, .unicode digits more⟩

theorem SpellsString.mended {s : String} {cs : List Char} (spelled : SpellsString strict s cs)
    (text : original ps = cs) (placed : Placed .outside ps) :
    ∃ literal, SpellsString strict literal (mended ps) := by
  cases spelled with
  | marked units =>
      obtain ⟨rest, rfl, text, placed⟩ := placed.uncons (by decide) text
      obtain ⟨body, rfl, text, placed⟩ := Placed.unquote placed text units.after
      obtain ⟨literal, more⟩ := units.mended body text placed
      rw [mended_kept, mended_append]
      exact ⟨_, .marked more⟩

theorem exists_mark {m : Char} {cs : List Char} (placed : Placed .outside ps)
    (mark : m ∈ ['[', ']', '\x7b', '\x7d', ',', ':']) (text : original ps = m :: cs) :
    ∃ rest, mended ps = m :: mended rest ∧ original rest = cs ∧ Placed .outside rest := by
  obtain ⟨rest, rfl, text, placed⟩ := placed.uncons (by decide) text
  rw [next_mark mark] at placed
  exact ⟨rest, rfl, text, placed⟩

theorem mended_mark {m : Char} (placed : Placed .outside ps)
    (mark : m ∈ ['[', ']', '\x7b', '\x7d', ',', ':']) (text : original ps = [m]) :
    mended ps = [m] := by
  obtain ⟨rest, same, text, placed⟩ := exists_mark placed mark text
  rw [same, (placed.leads (by decide)).eq_nil text]
  rfl

mutual

/-- With doubled pairs in its strings a spelling is a spelling. -/
theorem Spells.mended : ∀ {v : Json} {cs : List Char}, Spells strict v cs → ∀ {ps : List Piece},
    original ps = cs → Placed .outside ps → ∃ literal, Spells strict literal (mended ps)
  | v, _, .scalar spelled, _, text, placed =>
      ⟨v, by rw [placed.bare text spelled.isBare, mended_map]; exact .scalar spelled⟩
  | _, _, .string spelled, _, text, placed =>
      have ⟨_, literal⟩ := spelled.mended text placed
      ⟨_, .string literal⟩
  | _, _, .noItems spaces, _, text, placed => by
      obtain ⟨rest, opening, text, placed⟩ := exists_mark placed (by decide) text
      obtain ⟨last, rfl, text, placed⟩ := placed.skip text spaces.isBare
      rw [opening, mended_append, mended_map, mended_mark placed (by decide) text]
      exact ⟨_, .noItems spaces⟩
  | _, _, .array spaces spelled, _, text, placed => by
      obtain ⟨rest, opening, text, placed⟩ := exists_mark placed (by decide) text
      obtain ⟨inner, rfl, text, placed⟩ := placed.skip text spaces.isBare
      obtain ⟨items, last, rfl, text, close, placed, closing⟩ := placed.split text
      rw [spelled.after] at closing
      obtain ⟨literal, items⟩ := spelled.mended text placed
      rw [opening, mended_append, mended_map, mended_append, mended_mark closing (by decide) close]
      exact ⟨_, .array spaces items⟩
  | _, _, .noFields spaces, _, text, placed => by
      obtain ⟨rest, opening, text, placed⟩ := exists_mark placed (by decide) text
      obtain ⟨last, rfl, text, placed⟩ := placed.skip text spaces.isBare
      rw [opening, mended_append, mended_map, mended_mark placed (by decide) text]
      exact ⟨_, .noFields spaces⟩
  | _, _, .object spaces spelled, _, text, placed => by
      obtain ⟨rest, opening, text, placed⟩ := exists_mark placed (by decide) text
      obtain ⟨inner, rfl, text, placed⟩ := placed.skip text spaces.isBare
      obtain ⟨members, last, rfl, text, close, placed, closing⟩ := placed.split text
      rw [spelled.after] at closing
      obtain ⟨literal, members⟩ := spelled.mended text placed
      rw [opening, mended_append, mended_map, mended_append, mended_mark closing (by decide) close]
      exact ⟨_, .object spaces members⟩

theorem SpellsItems.mended : ∀ {vs : List Json} {cs : List Char}, SpellsItems strict vs cs →
    ∀ {ps : List Piece}, original ps = cs → Placed .outside ps →
      ∃ literal, SpellsItems strict literal (mended ps)
  | _, _, .last spelled spaces, _, text, placed => by
      obtain ⟨item, rest, rfl, text, after, placed, behind⟩ := placed.split text
      rw [spelled.after] at behind
      obtain ⟨literal, item⟩ := spelled.mended text placed
      rw [mended_append, behind.bare after spaces.isBare, mended_map]
      exact ⟨_, .last item spaces⟩
  | _, _, .more spelled spaces nextSpaces others, _, text, placed => by
      obtain ⟨item, rest, rfl, text, after, placed, behind⟩ := placed.split text
      rw [spelled.after] at behind
      obtain ⟨literal, item⟩ := spelled.mended text placed
      obtain ⟨comma, rfl, text, placed⟩ := behind.skip after spaces.isBare
      obtain ⟨rest, mark, text, placed⟩ := exists_mark placed (by decide) text
      obtain ⟨last, rfl, text, placed⟩ := placed.skip text nextSpaces.isBare
      obtain ⟨literals, items⟩ := others.mended text placed
      rw [mended_append, mended_append, mended_map, mark, mended_append, mended_map]
      exact ⟨_, .more item spaces nextSpaces items⟩

theorem SpellsMember.mended : ∀ {field : String × Json} {cs : List Char},
    SpellsMember strict field cs → ∀ {ps : List Piece}, original ps = cs → Placed .outside ps →
      ∃ literal, SpellsMember strict literal (mended ps)
  | _, _, .colon named beforeSpaces afterSpaces spelled, _, text, placed => by
      obtain ⟨name, rest, rfl, text, after, placed, behind⟩ := placed.split text
      rw [named.after] at behind
      obtain ⟨key, name⟩ := named.mended text placed
      obtain ⟨colon, rfl, text, placed⟩ := behind.skip after beforeSpaces.isBare
      obtain ⟨rest, mark, text, placed⟩ := exists_mark placed (by decide) text
      obtain ⟨last, rfl, text, placed⟩ := placed.skip text afterSpaces.isBare
      obtain ⟨literal, value⟩ := spelled.mended text placed
      rw [mended_append, mended_append, mended_map, mark, mended_append, mended_map]
      exact ⟨(key, literal), .colon name beforeSpaces afterSpaces value⟩

theorem SpellsMembers.mended : ∀ {fields : List (String × Json)} {cs : List Char},
    SpellsMembers strict fields cs → ∀ {ps : List Piece}, original ps = cs → Placed .outside ps →
      ∃ literal, SpellsMembers strict literal (mended ps)
  | _, _, .last spelled spaces, _, text, placed => by
      obtain ⟨field, rest, rfl, text, after, placed, behind⟩ := placed.split text
      rw [spelled.after] at behind
      obtain ⟨literal, field⟩ := spelled.mended text placed
      rw [mended_append, behind.bare after spaces.isBare, mended_map]
      exact ⟨_, .last field spaces⟩
  | _, _, .more spelled spaces nextSpaces others, _, text, placed => by
      obtain ⟨field, rest, rfl, text, after, placed, behind⟩ := placed.split text
      rw [spelled.after] at behind
      obtain ⟨literal, field⟩ := spelled.mended text placed
      obtain ⟨comma, rfl, text, placed⟩ := behind.skip after spaces.isBare
      obtain ⟨rest, mark, text, placed⟩ := exists_mark placed (by decide) text
      obtain ⟨last, rfl, text, placed⟩ := placed.skip text nextSpaces.isBare
      obtain ⟨literals, fields⟩ := others.mended text placed
      rw [mended_append, mended_append, mended_map, mark, mended_append, mended_map]
      exact ⟨_, .more field spaces nextSpaces fields⟩

end

end Spelling

end PromptCanvas.Json
