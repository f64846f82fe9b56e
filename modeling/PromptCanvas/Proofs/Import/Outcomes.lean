import PromptCanvas.Import.Document
import PromptCanvas.Proofs.Json.Overruns
import PromptCanvas.Proofs.Text.Trim

/-! # Outcomes of readings

A document is sought in several ways, and the first that comes to a value or to an integer that
is too long decides (`firstFound`).  What stops a strict reading stops one that is not, and both
come to the same value, so that of the two it is enough to look at the second
(`outcome_readEither`). -/

set_option autoImplicit false

namespace PromptCanvas.Document

open Json (Overlong)

section Outcomes

variable {n : Overlong} {v : Json} {reading : Except Json.Fault Json}

theorem outcome_eq_some_iff : outcome reading = .ok (some v) ↔ reading = .ok v := by
  unfold outcome
  split
  · simp
  · split <;> simp

theorem outcome_eq_error_iff :
    outcome reading = .error n ↔ ∃ fault, reading = .error fault ∧ fault.overlong? = some n := by
  unfold outcome
  split
  · simp
  · split <;> simp [*]

theorem exists_fault_of_outcome (nothing : outcome reading = .ok none) :
    ∃ fault, reading = .error fault ∧ fault.overlong? = none := by
  unfold outcome at nothing
  split at nothing
  · cases nothing
  · next fault =>
      split at nothing
      · cases nothing
      · next syntactic => exact ⟨fault, rfl, syntactic⟩

theorem eq_ok_none_of_isNone {found : Except Overlong (Option Json)}
    (nothing : found.toOption.map Option.isNone = some true) : found = .ok none := by
  rcases found with n | _ | v
  · cases nothing
  · rfl
  · cases nothing

theorem outcome_of_syntactic {fault : Json.Fault} (syntactic : fault.overlong? = none) :
    outcome (.error fault) = .ok none := by
  rw [outcome, syntactic]

theorem outcome_orElse {next : Json.Fault → Except Json.Fault Json}
    {found : Except Overlong (Option Json)} (same : ∀ fault, fault.overlong? = none →
      outcome (next fault) = found) :
    outcome (orElse reading next) =
      match outcome reading with
      | .ok none => found
      | conclusive => conclusive := by
  unfold orElse
  split
  · rfl
  · next fault =>
      cases long : fault.overlong? with
      | none =>
          rw [outcome_of_syntactic long]
          exact same fault long
      | some n => simp [outcome, long]

theorem outcome_read_error_iff {strict : Bool} {cs : List Char} :
    outcome (Json.read strict cs) = .error n ↔ Json.Stops strict n cs :=
  outcome_eq_error_iff.trans Json.stops_iff

theorem outcome_readEither (cs : List Char) :
    outcome (readEither cs) = outcome (Json.read false cs) := by
  rw [readEither, outcome_orElse fun _ _ => rfl]
  split
  · rfl
  · next found conclusive =>
      match strictly : outcome (Json.read true cs) with
      | .error n =>
          have stops := outcome_read_error_iff.mp strictly
          exact (outcome_read_error_iff.mpr stops.lenient).symm
      | .ok none => exact absurd strictly conclusive
      | .ok (some v) =>
          obtain ⟨before, text, after, spaces, afterSpaces, spelled, whole⟩ :=
            (Json.read_eq_ok_iff true cs v).mp (outcome_eq_some_iff.mp strictly)
          exact (outcome_eq_some_iff.mpr ((Json.read_eq_ok_iff false cs v).mpr
            ⟨before, text, after, spaces, afterSpaces, spelled.lenient, whole⟩)).symm

end Outcomes

section Sequences

variable {n : Overlong} {v : Json} {tries : List (Except Overlong (Option Json))}

/-- The first of some outcomes that is a value or an integer that is too long. -/
def firstFound : List (Except Overlong (Option Json)) → Except Overlong (Option Json)
  | [] => .ok none
  | .ok none :: tries => firstFound tries
  | found :: _ => found

@[simp]
theorem firstFound_nil : firstFound [] = .ok none := rfl

@[simp]
theorem firstFound_none : firstFound (.ok none :: tries) = firstFound tries := rfl

variable (found : Except Overlong (Option Json))

theorem firstFound_cons :
    firstFound (found :: tries) =
      match found with
      | .ok none => firstFound tries
      | conclusive => conclusive := by
  rcases found with n | _ | v <;> rfl

theorem firstFound_singleton : firstFound [found] = found := by
  rcases found with n | _ | v <;> rfl

theorem firstFound_twice : firstFound [found, found] = found := by
  rcases found with n | _ | v <;> rfl

theorem firstFound_pair_none : firstFound [found, .ok none] = found := by
  rcases found with n | _ | v <;> rfl

theorem firstFound_mem (tries : List (Except Json.Overlong (Option Json))) :
    firstFound tries = .ok none ∨ firstFound tries ∈ tries := by
  induction tries with
  | nil => exact .inl rfl
  | cons found tries ih =>
      match found with
      | .ok none => exact ih.imp_right (List.mem_cons_of_mem _)
      | .ok (some _) => exact .inr List.mem_cons_self
      | .error _ => exact .inr List.mem_cons_self

variable {found} in
theorem mem_of_firstFound (first : firstFound tries = found)
    (conclusive : found ≠ .ok none) : found ∈ tries := by
  rcases firstFound_mem tries with nothing | member
  · exact absurd (first.symm.trans nothing) conclusive
  · exact first ▸ member

theorem outcome_readFirst (texts : List (List Char)) :
    ∀ {fault : Json.Fault}, fault.overlong? = none → outcome (readFirst fault texts) =
      firstFound (texts.map fun cs => outcome (Json.read false cs)) := by
  induction texts with
  | nil => exact fun syntactic => outcome_of_syntactic syntactic
  | cons cs texts ih =>
      intro fault _
      rw [readFirst, outcome_orElse fun fault syntactic => ih syntactic, outcome_readEither,
        List.map_cons, firstFound_cons]

end Sequences

section Texts

variable {cs : List Char}

/-- The text that candidates are made of, without its fence and its byte order marks. -/
def bare (cs : List Char) : List Char :=
  escapeSeparators ((withoutFence cs).dropWhile (· == '\ufeff'))

theorem trim_withoutFence (cs : List Char) : Text.trim (withoutFence cs) = withoutFence cs := by
  rw [withoutFence]
  cases found : fencedBody? (Text.trim cs) with
  | none => exact Text.trim_trim cs
  | some body =>
      unfold fencedBody? at found
      split at found
      · obtain ⟨inner, -, rfl⟩ := Option.map_eq_some_iff.mp found
        exact Text.trim_trim inner
      · cases found

theorem outcome_parse_of_blank (blank : Text.isBlankText (withoutFence cs) = true) :
    outcome (parse cs) = .ok none := by
  simp only [parse, blank, if_true]
  rfl

theorem bare_of_blank (blank : Text.isBlankText (withoutFence cs) = true) : bare cs = [] := by
  rw [Text.isBlankText_iff, trim_withoutFence] at blank
  rw [bare, blank]
  rfl

/-- What a text is parsed as is decided by the text as it is and the text with repaired escapes. -/
theorem outcome_parse (cs : List Char) :
    outcome (parse cs) = firstFound
      [outcome (Json.read false (Text.trim (bare cs))),
        outcome (Json.read false (Text.trim (repairEscapes (bare cs))))] := by
  have nothing : outcome (Json.read false []) = .ok none := rfl
  by_cases blank : Text.isBlankText (withoutFence cs) = true
  · rw [outcome_parse_of_blank blank, bare_of_blank blank]
    rfl
  simp only [parse, blank, Bool.false_eq_true, if_false]
  rw [outcome_readFirst _ rfl, candidates, ← bare]
  -- Leaving out an empty text, or one that was there before, changes nothing.
  by_cases empty : Text.trim (bare cs) = []
  · by_cases emptied : Text.trim (repairEscapes (bare cs)) = [] <;> simp [empty, emptied, nothing]
  · by_cases emptied : Text.trim (repairEscapes (bare cs)) = []
    · simp [empty, emptied, nothing, firstFound_singleton, firstFound_pair_none]
    · by_cases same : Text.trim (repairEscapes (bare cs)) = Text.trim (bare cs)
      · simp [same, empty, firstFound_singleton, firstFound_twice]
      · simp [empty, emptied, same]

theorem parseWith_false (cs : List Char) : parseWith false cs = parse cs := by
  unfold parseWith
  cases parse cs <;> rfl

/-- The document of a text is sought in its fence or its braces after the text as a whole. -/
theorem extract_false (cs : List Char) :
    extract false cs = firstFound (outcome (parse (Text.trim cs)) ::
      ((innerFence? (Text.trim cs)).or (braceSpan? (Text.trim cs))).toList.map
        fun inner => outcome (parse inner)) := by
  by_cases blank : Text.isBlankText cs = true
  · rw [extract, if_pos blank, (Text.isBlankText_iff cs).mp blank]
    rfl
  simp only [extract, blank, Bool.false_eq_true, if_false, parseWith_false]
  rw [firstFound_cons]
  rcases outcome (parse (Text.trim cs)) with n | _ | v
  · cases (innerFence? (Text.trim cs)).or (braceSpan? (Text.trim cs)) <;> rfl
  · cases (innerFence? (Text.trim cs)).or (braceSpan? (Text.trim cs)) with
    | none => rfl
    | some inner => exact (firstFound_singleton _).symm
  · cases (innerFence? (Text.trim cs)).or (braceSpan? (Text.trim cs)) <;> rfl

end Texts

end PromptCanvas.Document
