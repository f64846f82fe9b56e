import PromptCanvas.Import.Dialects
import PromptCanvas.Proofs.Import.Document
import PromptCanvas.Proofs.Import.Outcomes
import PromptCanvas.Proofs.Json.Rewriting

/-! # Sanitizing a JSON text

A text that is JSON already is the document that is extracted from it, whatever stands
in its strings (`extract_of_read`): it begins with no fence, and the separators that
are escaped in it stand in strings, where an escape spells the same (`Spells.escaped`).
Any text with printed ends (`Edged`) is tried like that first, and with repaired escapes
after it (`parse_edged`).  Leaving out thoughts comes after all of that (`extract_true`). -/

set_option autoImplicit false

namespace PromptCanvas

namespace Document

open Json (Spaces)

section Separators

theorem escapeSeparators_append (front back : List Char) :
    escapeSeparators (front ++ back) = escapeSeparators front ++ escapeSeparators back :=
  List.flatMap_append

def IsSeparator (c : Char) : Prop := c = '\u2028' ∨ c = '\u2029'

instance (c : Char) : Decidable (IsSeparator c) :=
  inferInstanceAs (Decidable (c = '\u2028' ∨ c = '\u2029'))

theorem exists_escapeSeparators {c : Char} (separator : IsSeparator c) : ∃ d ∈ ['8', '9'],
    ∀ cs, escapeSeparators (c :: cs) = '\\' :: 'u' :: '2' :: '0' :: '2' :: d ::
      escapeSeparators cs := by
  rcases separator with rfl | rfl
  · exact ⟨'8', by decide, fun _ => rfl⟩
  · exact ⟨'9', by decide, fun _ => rfl⟩

theorem escapeSeparators_cons_of_not {c : Char} (other : ¬ IsSeparator c) (cs : List Char) :
    escapeSeparators (c :: cs) = c :: escapeSeparators cs := by
  obtain ⟨line, paragraph⟩ := not_or.mp other
  rw [escapeSeparators, List.flatMap_cons, if_neg line, if_neg paragraph]
  rfl

theorem escapeSeparators_cons {c : Char} (small : c.toNat < 0x80) (cs : List Char) :
    escapeSeparators (c :: cs) = c :: escapeSeparators cs := by
  refine escapeSeparators_cons_of_not ?_ cs
  rintro (rfl | rfl) <;> exact absurd small (by decide)

theorem escapeSeparators_spaces {gap : List Char} (spaces : Spaces gap) :
    escapeSeparators gap = gap := by
  refine escapeSeparators_ascii fun c member => ?_
  have space := spaces c member
  simp only [Json.isJsonSpace, Bool.or_eq_true, decide_eq_true_iff] at space
  rcases space with ((rfl | rfl) | rfl) | rfl <;> decide

theorem small_of_hexValue? {c : Char} {digit : Nat} (value : Text.hexValue? c = some digit) :
    c.toNat < 0x80 := by
  unfold Text.hexValue? at value
  split at value
  · next decimal =>
      have := Numeral.toNat_of_isDigit decimal
      omega
  · split at value
    · next lower => exact Nat.lt_of_le_of_lt lower.2 (by decide)
    · split at value
      · next upper => exact Nat.lt_of_le_of_lt upper.2 (by decide)
      · cases value

theorem ascii_of_hexNumber? {cs : List Char} {unit : Nat}
    (digits : Text.hexNumber? cs = some unit) : Text.Ascii cs := by
  intro c member
  obtain ⟨digit, value⟩ :=
    Option.isSome_iff_exists.mp (Text.isSome_hexValue?_of_hexNumber? digits c member)
  exact small_of_hexValue? value

theorem ascii_of_simpleEscape? {e plain : Char} (escape : Json.simpleEscape? e = some plain) :
    e.toNat < 0x80 := by
  unfold Json.simpleEscape? at escape
  split at escape
  any_goals decide
  cases escape

end Separators

end Document

namespace Json

open Document

section Escaping

variable {strict : Bool}

theorem SpellsUnits.escaped {units : List Nat} {cs : List Char}
    (spelled : SpellsUnits strict units cs) : SpellsUnits strict units (escapeSeparators cs) := by
  induction spelled with
  | nil => exact .nil
  | @plain c units cs noQuote noEscape allowed _ ih =>
      by_cases separator : IsSeparator c
      · rcases separator with rfl | rfl
        · exact .unicode (a := '2') (b := '0') (c := '2') (d := '8') rfl ih
        · exact .unicode (a := '2') (b := '0') (c := '2') (d := '9') rfl ih
      · rw [escapeSeparators_cons_of_not separator]
        exact .plain noQuote noEscape allowed ih
  | simple escape _ ih =>
      rw [escapeSeparators_cons (by decide), escapeSeparators_cons (ascii_of_simpleEscape? escape)]
      exact .simple escape ih
  | unicode digits _ ih =>
      have ascii := ascii_of_hexNumber? digits
      simp only [Text.ascii_cons] at ascii
      rw [escapeSeparators_cons (by decide), escapeSeparators_cons (by decide),
        escapeSeparators_cons ascii.1, escapeSeparators_cons ascii.2.1,
        escapeSeparators_cons ascii.2.2.1, escapeSeparators_cons ascii.2.2.2.1]
      exact .unicode digits ih

theorem SpellsString.escaped {s : String} {cs : List Char} (spelled : SpellsString strict s cs) :
    SpellsString strict s (escapeSeparators cs) := by
  cases spelled with
  | marked units =>
      rw [escapeSeparators_cons (by decide), escapeSeparators_append]
      exact .marked units.escaped

theorem SpellsScalar.escaped {v : Json} {cs : List Char} (spelled : SpellsScalar v cs) :
    SpellsScalar v (escapeSeparators cs) := by
  rw [escapeSeparators_ascii fun c member => ?_]
  · exact spelled
  · have := (spelled.printed c member).2.1
    omega

theorem rewriting_escapeSeparators : Rewriting strict escapeSeparators where
  append := fun _ => escapeSeparators_append _ _
  mark := Json.forall_joints.mpr (by decide)
  spaces := fun spaces => by rwa [escapeSeparators_spaces spaces]
  scalar := SpellsScalar.escaped
  string := SpellsString.escaped

theorem Spells.escaped {v : Json} {cs : List Char} (spelled : Spells strict v cs) :
    Spells strict v (escapeSeparators cs) :=
  rewriting_escapeSeparators.spells spelled

end Escaping

end Json

namespace Document

open Json (Spells)
open Text (Edged SolidHead SolidLast)

section Ends

variable {cs : List Char}

theorem withoutFence_of_head (other : ∀ c ∈ (Text.trim cs).head?, c ≠ '\x60') :
    withoutFence cs = Text.trim cs := by
  have none : fence.isPrefixOf? (Text.trim cs) = none := by
    refine Text.isPrefixOf?_eq_none ?_
    rintro ⟨rest, whole⟩
    exact other '\x60' (by rw [← whole]; rfl) rfl
  rw [withoutFence, fencedBody?, none]
  rfl

theorem dropWhile_of_printed (printed : ∀ c ∈ cs.head?, Text.IsPrinted c) :
    cs.dropWhile (· == '\ufeff') = cs := by
  cases cs with
  | nil => rfl
  | cons c more =>
      refine List.dropWhile_cons_of_neg ?_
      intro mark
      have ascii := (printed c rfl).2.1
      rw [beq_iff_eq.mp mark] at ascii
      exact absurd ascii (by decide)

theorem not_isSeparator {c : Char} (solid : Text.isBlank c = false) : ¬ IsSeparator c := by
  rintro (rfl | rfl) <;> cases solid

theorem head?_escapeSeparators (head : SolidHead cs) :
    (escapeSeparators cs).head? = cs.head? := by
  cases cs with
  | nil => rfl
  | cons c cs =>
      rw [escapeSeparators_cons_of_not (not_isSeparator (head c rfl))]
      rfl

theorem getLast?_escapeSeparators (last : SolidLast cs) :
    (escapeSeparators cs).getLast? = cs.getLast? := by
  rcases List.eq_nil_or_concat cs with rfl | ⟨front, c, rfl⟩
  · rfl
  · rw [List.concat_eq_append] at last ⊢
    have other := not_isSeparator (last c List.getLast?_concat)
    rw [escapeSeparators_append, escapeSeparators_cons_of_not other]
    exact List.getLast?_concat.trans List.getLast?_concat.symm

theorem head?_repairEscapes (cs : List Char) : (repairEscapes cs).head? = cs.head? := by
  fun_cases repairEscapes cs with
  | case1 => rfl
  | case2 => rfl
  | case3 c d rest stray =>
      rw [Bool.and_eq_true, decide_eq_true_iff] at stray
      exact congrArg some stray.1.symm
  | case4 => rfl

theorem getLast?_repairEscapes (cs : List Char) : (repairEscapes cs).getLast? = cs.getLast? := by
  fun_induction repairEscapes cs with
  | case1 => rfl
  | case2 => rfl
  | case3 c d rest stray ih =>
      rw [List.getLast?_cons_cons, List.getLast?_cons_cons, List.getLast?_cons_cons,
        List.getLast?_cons, List.getLast?_cons, ih]
  | case4 c d rest other ih =>
      rw [List.getLast?_cons_cons, List.getLast?_cons, ih, List.getLast?_cons, Option.getD_some]

theorem escapeSeparators_edged (edged : Edged cs) : Edged (escapeSeparators cs) :=
  edged.congr (head?_escapeSeparators edged.solidHead) (getLast?_escapeSeparators edged.solidLast)

theorem repairEscapes_edged (edged : Edged cs) : Edged (repairEscapes cs) :=
  edged.congr (head?_repairEscapes cs) (getLast?_repairEscapes cs)

end Ends

section Documents

variable {cs : List Char} {v : Json}

theorem withoutFence_edged (edged : Edged cs) : withoutFence cs = cs := by
  have trimmed := edged.trim_eq
  rw [withoutFence_of_head (by rw [trimmed]; exact fun c head => (edged.head c head).2.2), trimmed]

/-- A text with printed ends is read as it is and, failing that, with repaired escapes. -/
theorem parse_edged (edged : Edged cs) :
    parse cs = readFirst (.atStart .unparsedPayload)
      (escapeSeparators cs ::
        if repairEscapes (escapeSeparators cs) = escapeSeparators cs then []
        else [repairEscapes (escapeSeparators cs)]) := by
  have escaped := escapeSeparators_edged edged
  have repaired := repairEscapes_edged escaped
  rw [parse, withoutFence_edged edged, edged.isBlankText_eq, dropWhile_of_printed edged.head,
    candidates, escaped.trim_eq, repaired.trim_eq,
    List.isEmpty_eq_false_iff.mpr escaped.nonempty,
    List.isEmpty_eq_false_iff.mpr repaired.nonempty]
  simp

theorem parse_spells (spelled : Spells true v cs) : parse cs = .ok v := by
  rw [parse_edged spelled.edged]
  simp only [readFirst, readEither, spelled.escaped.read_eq, orElse]

theorem parse_congr {other : List Char} (same : withoutFence cs = withoutFence other) :
    parse cs = parse other := by
  rw [parse, parse, same]

theorem parse_trim (cs : List Char) : parse (Text.trim cs) = parse cs :=
  parse_congr (by rw [withoutFence, withoutFence, Text.trim_trim])

theorem parse_of_read (reading : Json.read true cs = .ok v) : parse cs = .ok v := by
  rw [← parse_trim]
  exact parse_spells (Json.spells_trim_of_read reading)

theorem parseWith_of_parse (parsed : parse cs = .ok v) : parseWith false cs = .ok v :=
  (parseWith_false cs).trans parsed

theorem extract_of_parse (parsed : parse cs = .ok v) : extract false cs = .ok (some v) := by
  rw [extract_false, parse_trim, parsed]
  rfl

theorem extract_of_long {n : Json.Overlong} (held : outcome (parse cs) = .error n) :
    extract false cs = .error n := by
  rw [extract_false, parse_trim, held]
  rfl

theorem extract_of_nothing (nothing : outcome (parse cs) = .ok none) :
    extract false cs = firstFound (((innerFence? (Text.trim cs)).or
      (braceSpan? (Text.trim cs))).toList.map fun inner => outcome (parse inner)) := by
  rw [extract_false, parse_trim, nothing]
  rfl

theorem extract_of_read (reading : Json.read true cs = .ok v) : extract false cs = .ok (some v) :=
  extract_of_parse (parse_of_read reading)

theorem extract_trim (dropThoughts : Bool) (cs : List Char) :
    extract dropThoughts (Text.trim cs) = extract dropThoughts cs := by
  have blank : Text.isBlankText (Text.trim cs) = Text.isBlankText cs := by
    rw [Bool.eq_iff_iff, Text.isBlankText_iff, Text.isBlankText_iff, Text.trim_trim]
  rw [extract, extract, blank, Text.trim_trim]

end Documents

section Thoughts

theorem parseWith_true (cs : List Char) :
    parseWith true cs = (parseWith false cs).map withoutThoughts := by
  unfold parseWith
  cases parse cs <;> rfl

theorem outcome_map_withoutThoughts (reading : Except Json.Fault Json) :
    outcome (reading.map withoutThoughts) =
      (outcome reading).map (Option.map withoutThoughts) := by
  cases reading with
  | ok v => rfl
  | error fault =>
      cases long : fault.overlong? <;> simp [Except.map, outcome, long]

theorem extract_true (cs : List Char) :
    extract true cs = (extract false cs).map (Option.map withoutThoughts) := by
  unfold extract
  simp only [parseWith_true, outcome_map_withoutThoughts]
  split
  · rfl
  · rcases outcome (parseWith false (Text.trim cs)) with n | _ | v
    · rfl
    · cases (innerFence? (Text.trim cs)).or (braceSpan? (Text.trim cs)) <;> rfl
    · rfl

end Thoughts

end Document

namespace Import

section Reading

variable {v : Json}

theorem graphDocument?_eq_some_iff {j : Json} : graphDocument? j = some v ↔ j = v ∧
    (∃ nodes, v.field "nodes" = .array nodes) ∧ ∃ edges, v.field "edges" = .array edges := by
  unfold graphDocument?
  split
  · next nodes edges nodesField edgesField =>
      rw [Option.some.injEq]
      refine ⟨?_, And.left⟩
      rintro rfl
      exact ⟨rfl, ⟨nodes, nodesField⟩, edges, edgesField⟩
  · next other =>
      simp only [reduceCtorEq, false_iff, not_and]
      rintro rfl ⟨nodes, nodesField⟩ ⟨edges, edgesField⟩
      exact other nodes edges nodesField edgesField

theorem jsonGraph_eq_some_iff (cs : List Char) :
    jsonGraph cs = .ok (some v) ↔ Document.extract false cs = .ok (some v) ∧
      (∃ nodes, v.field "nodes" = .array nodes) ∧ ∃ edges, v.field "edges" = .array edges := by
  unfold jsonGraph
  rcases Document.extract false cs with n | _ | j
  · simp [Except.map]
  · simp [Except.map]
  · simp only [Except.map, Except.ok.injEq, Option.bind_some, graphDocument?_eq_some_iff,
      Option.some.injEq]

theorem jsonGraph_eq_error_iff {n : Json.Overlong} (cs : List Char) :
    jsonGraph cs = .error n ↔ Document.extract false cs = .error n := by
  unfold jsonGraph
  cases Document.extract false cs <;> simp [Except.map]

theorem jsonGraph_trim (cs : List Char) : jsonGraph (Text.trim cs) = jsonGraph cs := by
  rw [jsonGraph, Document.extract_trim, jsonGraph]

/-- Steps are told only in a text that holds no graph document. -/
theorem read_eq (text : String) :
    read text =
      match jsonGraph text.toList with
      | .ok none => .ok ((told? (Text.trim text.toList)).map Step.chain)
      | found => found := by
  rcases found : jsonGraph text.toList with n | _ | v <;>
    simp only [read, jsonGraph_trim, found]

theorem read_of_jsonGraph {text : String} (found : jsonGraph text.toList = .ok (some v)) :
    read text = .ok (some v) := by
  rw [read_eq, found]

/-- A JSON text with an array of nodes and an array of edges is taken for the value that it is. -/
theorem jsonGraph_of_load {cs : List Char} (loaded : Json.load cs = .ok v)
    (nodes : ∃ nodes, v.field "nodes" = .array nodes)
    (edges : ∃ edges, v.field "edges" = .array edges) : jsonGraph cs = .ok (some v) :=
  (jsonGraph_eq_some_iff cs).mpr
    ⟨Document.extract_of_read (Json.read_of_load loaded), nodes, edges⟩

end Reading

end Import

end PromptCanvas
