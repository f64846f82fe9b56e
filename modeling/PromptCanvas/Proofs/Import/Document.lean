import PromptCanvas.Import.Document
import PromptCanvas.Proofs.Json.Ascii
import PromptCanvas.Proofs.Json.RoundTrip
import PromptCanvas.Proofs.Text.Trim

/-! # Extracting written documents

The text of an object in a style of ASCII characters is the document that is
extracted from it (`extract_textAt`): it stands in no fence, holds nothing to
repair, and is read at the first attempt. -/

set_option autoImplicit false

namespace PromptCanvas.Document

open Text (Ascii SolidHead SolidLast)

section Objects

/-- A trimmed text from an opening brace on, of ASCII characters. -/
structure Braced (cs : List Char) : Prop where
  opening : cs.head? = some '\x7b'
  trimmed : Text.trim cs = cs
  ascii : Ascii cs

theorem Braced.exists_cons {cs : List Char} (braced : Braced cs) :
    ∃ rest, cs = '\x7b' :: rest := by
  cases cs with
  | nil => cases braced.opening
  | cons c rest => exact ⟨rest, by rw [Option.some.inj braced.opening]⟩

theorem escapeSeparators_ascii {cs : List Char} (ascii : Ascii cs) : escapeSeparators cs = cs := by
  induction cs with
  | nil => rfl
  | cons c cs ih =>
      obtain ⟨small, rest⟩ := Text.ascii_cons.mp ascii
      have line : c ≠ '\u2028' := by
        rintro rfl
        exact absurd small (by decide)
      have paragraph : c ≠ '\u2029' := by
        rintro rfl
        exact absurd small (by decide)
      have kept := ih rest
      rw [escapeSeparators] at kept ⊢
      rw [List.flatMap_cons, if_neg line, if_neg paragraph, kept]
      rfl

theorem withoutFence_braced {cs : List Char} (braced : Braced cs) : withoutFence cs = cs := by
  obtain ⟨rest, rfl⟩ := braced.exists_cons
  rw [withoutFence, braced.trimmed]
  rfl

theorem parse_braced {cs : List Char} {v : Json} (braced : Braced cs)
    (read : Json.read true cs = .ok v) : parse cs = .ok v := by
  have solid : Text.isBlankText cs = false := by
    obtain ⟨rest, rfl⟩ := braced.exists_cons
    rfl
  have noMark : cs.dropWhile (· == '\ufeff') = cs := by
    obtain ⟨rest, rfl⟩ := braced.exists_cons
    rfl
  have nonempty : cs.isEmpty = false := by
    obtain ⟨rest, rfl⟩ := braced.exists_cons
    rfl
  rw [parse, withoutFence_braced braced, solid, noMark, escapeSeparators_ascii braced.ascii,
    candidates, braced.trimmed, nonempty]
  simp only [Bool.false_eq_true, if_false, List.cons_append, readFirst, readEither, read, orElse]

theorem extract_braced {cs : List Char} {v : Json} (braced : Braced cs)
    (read : Json.read true cs = .ok v) : extract false cs = .ok (some v) := by
  have solid : Text.isBlankText cs = false := by
    obtain ⟨rest, rfl⟩ := braced.exists_cons
    rfl
  have parsed : parseWith false cs = .ok v := by
    simp only [parseWith, parse_braced braced read]
    rfl
  simp only [extract, solid, braced.trimmed, parsed]
  rfl

end Objects

section Texts

theorem braced_textAt {style : Json.Style} (escapes : style.asciiOnly = true)
    (fields : List (String × Json)) : Braced (Json.textAt style 0 (.object fields)) := by
  have ends : ∃ inner, Json.textAt style 0 (.object fields) = '\x7b' :: inner ++ ['\x7d'] := by
    cases fields with
    | nil => exact ⟨[], rfl⟩
    | cons field fields =>
        simp only [Json.textAt]
        exact ⟨_, rfl⟩
  refine ⟨?_, ?_, Json.ascii_textAt escapes _ 0⟩
  · obtain ⟨inner, text⟩ := ends
    rw [text]
    rfl
  · obtain ⟨inner, text⟩ := ends
    rw [text]
    refine (Text.trim_eq_self_iff _).mpr ⟨?_, Text.solidLast_append ?_ (List.cons_ne_nil _ _) _⟩
    · rintro c ⟨⟩
      rfl
    · rintro c ⟨⟩
      rfl

theorem extract_textAt {style : Json.Style} (escapes : style.asciiOnly = true)
    {fields : List (String × Json)} (distinct : (Json.object fields).Rereadable) :
    extract false (Json.textAt style 0 (.object fields)) =
      .ok (some (Json.object fields).reread) :=
  extract_braced (braced_textAt escapes fields) (Json.read_textAt style true distinct)

end Texts

end PromptCanvas.Document
