import PromptCanvas.Proofs.Import.Sanitizing
import PromptCanvas.Proofs.Json.Derails
import PromptCanvas.Proofs.Json.Pieces
import PromptCanvas.Proofs.Json.RoundTrip

/-! # Repaired backslashes

A JSON text into whose strings backslashes were put that begin no escape is parsed with these
backslashes read literally, or not at all (`parse_marred`).  The repair does not see where an
escape begins: it takes an escaped backslash together with the character behind it, and if these
two make no escape, doubles it, too.  So the text is parsed exactly if a pair, or a character that
makes an escape, stands behind every escaped backslash (`Untangled`).

The repair is followed through a text from zone to zone (`exists_repaired`).  It doubles the
backslashes of the pairs alone (`repairEscapes_marred`) or derails at the first escaped backslash
that it doubles (`derails_repairEscapes_marred`). -/

set_option autoImplicit false

namespace PromptCanvas.Document

open Json (Derails Piece Zone)
open Json.Piece
open Text (Edged)

section Backslashes

theorem repairEscapes_cons {c : Char} (plain : c ≠ '\\') (cs : List Char) :
    repairEscapes (c :: cs) = c :: repairEscapes cs := by
  cases cs with
  | nil => rfl
  | cons d rest => simp [repairEscapes, plain]

theorem repairEscapes_escape {c : Char} (escapable : isEscapable c = true) (cs : List Char) :
    repairEscapes ('\\' :: c :: cs) = '\\' :: repairEscapes (c :: cs) := by
  simp [repairEscapes, escapable]

theorem repairEscapes_stray {c : Char} (stray : isEscapable c = false) (cs : List Char) :
    repairEscapes ('\\' :: c :: cs) = '\\' :: '\\' :: c :: repairEscapes cs := by
  simp [repairEscapes, stray]

theorem small_of_isEscapable {c : Char} (escapable : isEscapable c = true) : c.toNat < 0x80 := by
  have letters : ∀ d ∈ "\"\\/bfnrtu".toList, d.toNat < 0x80 :=
    List.all_iff_forall_prop.mp (by decide)
  exact letters c (List.contains_iff_mem.mp escapable)

/-- The repair copies every character but a backslash, also where it is written as an escape. -/
theorem repairEscapes_plain {c : Char} (plain : c ≠ '\\') (cs : List Char) :
    repairEscapes (escapeSeparators (c :: cs)) =
      escapeSeparators [c] ++ repairEscapes (escapeSeparators cs) := by
  by_cases separator : IsSeparator c
  · obtain ⟨d, digit, same⟩ := exists_escapeSeparators separator
    have last : d ≠ '\\' := by
      rintro rfl
      exact absurd digit (by decide)
    rw [same, same, repairEscapes_escape (by decide), repairEscapes_cons (by decide),
      repairEscapes_cons (by decide), repairEscapes_cons (by decide),
      repairEscapes_cons (by decide), repairEscapes_cons last]
    rfl
  · rw [escapeSeparators_cons_of_not separator, escapeSeparators_cons_of_not separator,
      repairEscapes_cons plain]
    rfl

end Backslashes

section Zones

variable {z : Zone} {c : Char}

theorem isEscapable_of_next (whole : Zone.next .escaped c ≠ .broken) : isEscapable c = true := by
  by_contra other
  have noUnicode : c ≠ 'u' := by
    rintro rfl
    exact other (by decide)
  exact whole (by simp [Zone.next, noUnicode, other])

/-- Elsewhere than inside of strings a text is ASCII, and a backslash is an escaped one. -/
theorem small_of_next (whole : z.next c ≠ .broken) (elsewhere : z ≠ .inside) :
    c.toNat < 0x80 ∧ (c = '\\' → z = .escaped) := by
  cases z with
  | outside =>
      by_cases quote : c = '"'
      · subst quote
        decide
      · have bare : ¬ (c = '\\' ∨ 0x80 ≤ c.toNat) :=
          fun odd => whole (by simp [Zone.next, quote, odd])
        obtain ⟨plain, small⟩ := not_or.mp bare
        exact ⟨Nat.lt_of_not_le small, fun backslash => absurd backslash plain⟩
  | inside => exact absurd rfl elsewhere
  | escaped => exact ⟨small_of_isEscapable (isEscapable_of_next whole), fun _ => rfl⟩
  | digits left =>
      cases value : Text.hexValue? c with
      | none => exact absurd (by simp [Zone.next, value]) whole
      | some digit =>
          refine ⟨small_of_hexValue? value, ?_⟩
          rintro rfl
          cases value
  | broken => exact absurd rfl whole

/-- A separator is written as an escape where it stands inside of a string. -/
theorem after_escapeSeparators (whole : z.next c ≠ .broken) :
    z.after (escapeSeparators [c]) = z.next c := by
  by_cases separator : IsSeparator c
  · have within : z = .inside := by
      by_contra elsewhere
      have small := (small_of_next whole elsewhere).1
      rcases separator with rfl | rfl <;> exact absurd small (by decide)
    subst within
    rcases separator with rfl | rfl <;> decide
  · rw [escapeSeparators_cons_of_not separator]
    rfl

end Zones

section Pairs

variable {c : Char} {ps : List Piece}

theorem escapeSeparators_marred (stray : IsStray c) :
    escapeSeparators (marred (.pair c :: ps)) = '\\' :: c :: escapeSeparators (marred ps) := by
  rw [marred_pair, escapeSeparators_cons (by decide),
    escapeSeparators_cons (stray.2.1.trans (by decide))]

theorem escapeSeparators_mended (stray : IsStray c) :
    escapeSeparators (mended (.pair c :: ps)) =
      '\\' :: '\\' :: c :: escapeSeparators (mended ps) := by
  rw [mended_pair, escapeSeparators_cons (by decide), escapeSeparators_cons (by decide),
    escapeSeparators_cons (stray.2.1.trans (by decide))]

end Pairs

section Tangles

/-- What follows a backslash keeps the repair from doubling it. -/
def Shields : List Piece → Prop
  | .kept c :: _ => isEscapable c = true ∨ IsSeparator c
  | _ => True

instance : DecidablePred Shields
  | [] => isTrue trivial
  | .kept c :: _ => inferInstanceAs (Decidable (isEscapable c = true ∨ IsSeparator c))
  | .pair _ :: _ => isTrue trivial

/-- No escaped backslash would be doubled. The first half of one is kept in any case, as the
second half makes an escape with it. -/
def Untangled : Zone → List Piece → Prop
  | _, [] => True
  | z, .kept c :: ps => (z = .escaped → c = '\\' → Shields ps) ∧ Untangled (z.next c) ps
  | z, .pair _ :: ps => Untangled z ps

instance decidableUntangled : ∀ (z : Zone) (ps : List Piece), Decidable (Untangled z ps)
  | _, [] => isTrue trivial
  | z, .kept c :: ps =>
      have := decidableUntangled (z.next c) ps
      inferInstanceAs (Decidable ((z = .escaped → c = '\\' → Shields ps) ∧ Untangled (z.next c) ps))
  | z, .pair _ :: ps => decidableUntangled z ps

variable {z : Zone} {c : Char} {ps : List Piece}

theorem repairEscapes_shielded (shields : Shields ps) :
    repairEscapes ('\\' :: escapeSeparators (marred ps)) =
      '\\' :: repairEscapes (escapeSeparators (marred ps)) := by
  match ps with
  | [] => rfl
  | .pair c :: ps => exact repairEscapes_escape (c := '\\') (by decide) _
  | .kept c :: ps =>
      rcases shields with escapable | separator
      · have same : escapeSeparators (marred (.kept c :: ps)) =
            c :: escapeSeparators (marred ps) :=
          escapeSeparators_cons (small_of_isEscapable escapable) _
        rw [same, repairEscapes_escape escapable]
      · obtain ⟨d, -, same⟩ := exists_escapeSeparators separator
        rw [marred_kept, same, repairEscapes_escape (by decide)]

/-- The repair leaves an escape as it is, a backslash in it only if it is shielded. -/
theorem repairEscapes_copied (escapable : isEscapable c = true)
    (shielded : c = '\\' → Shields ps) :
    repairEscapes ('\\' :: c :: escapeSeparators (marred ps)) =
      '\\' :: c :: repairEscapes (escapeSeparators (marred ps)) := by
  rw [repairEscapes_escape escapable]
  by_cases backslash : c = '\\'
  · rw [backslash, repairEscapes_shielded (shielded backslash)]
  · rw [repairEscapes_cons backslash]

theorem exists_exposed (exposed : ¬ Shields ps) : ∃ c more, ps = .kept c :: more ∧
    isEscapable c = false ∧ ¬ IsSeparator c := by
  match ps with
  | [] => exact absurd trivial exposed
  | .pair _ :: _ => exact absurd trivial exposed
  | .kept c :: more =>
      obtain ⟨stray, other⟩ := not_or.mp exposed
      exact ⟨c, more, rfl, Bool.eq_false_iff.mpr stray, other⟩

/-- The backslash that the repair has not come past where an escape is open. -/
def pending (z : Zone) : List Char := if z = .escaped then ['\\'] else []

def start (z : Zone) : Zone := if z = .escaped then .inside else z

/-- What the repair makes of a kept character: it comes past it, or stops at the backslash of
an escape. -/
theorem exists_repaired (whole : z.next c ≠ .broken)
    (shielded : z = .escaped → c = '\\' → Shields ps) :
    ∃ done, (start z).after done = start (z.next c) ∧
      (∀ rest, pending z ++ escapeSeparators (c :: rest) =
        done ++ (pending (z.next c) ++ escapeSeparators rest)) ∧
      repairEscapes (pending z ++ escapeSeparators (c :: marred ps)) =
        done ++ repairEscapes (pending (z.next c) ++ escapeSeparators (marred ps)) := by
  -- The character of an escape is copied with its backslash, a backslash that opens an escape
  -- waits for its character, and any other character is copied alone.
  by_cases escape : z = .escaped
  · subst escape
    have escapable := isEscapable_of_next whole
    have same := escapeSeparators_cons (small_of_isEscapable escapable)
    have closed : Zone.next .escaped c ≠ .escaped := fun opened =>
      absurd (Zone.next_eq_escaped_iff.mp opened).1 (by decide)
    refine ⟨['\\', c], ?_, fun rest => ?_, ?_⟩
    · rw [start, start, if_pos rfl, if_neg closed]
      rfl
    · simp [pending, closed, same]
    · simp [pending, closed, same, repairEscapes_copied escapable (shielded rfl)]
  · by_cases opened : z.next c = .escaped
    · obtain ⟨rfl, rfl⟩ := Zone.next_eq_escaped_iff.mp opened
      exact ⟨[], rfl, fun _ => rfl, rfl⟩
    · have plain : c ≠ '\\' := by
        intro backslash
        refine opened (Zone.next_eq_escaped_iff.mpr ⟨?_, backslash⟩)
        by_contra elsewhere
        exact escape ((small_of_next whole elsewhere).2 backslash)
      refine ⟨escapeSeparators [c], ?_, fun rest => ?_, ?_⟩
      · rw [start, start, if_neg escape, if_neg opened, after_escapeSeparators whole]
      · rw [pending, pending, if_neg escape, if_neg opened]
        exact escapeSeparators_append [c] rest
      · rw [pending, pending, if_neg escape, if_neg opened]
        exact repairEscapes_plain plain (marred ps)

/-- Where no escaped backslash would be doubled, the repair doubles the backslashes of the
pairs. -/
theorem repairEscapes_marred (placed : Placed z ps) (whole : z.after (original ps) ≠ .broken)
    (untangled : Untangled z ps) :
    repairEscapes (pending z ++ escapeSeparators (marred ps)) =
      pending z ++ escapeSeparators (mended ps) := by
  induction ps generalizing z with
  | nil =>
      rw [pending]
      split <;> rfl
  | cons p ps ih =>
      cases p with
      | kept c =>
          obtain ⟨done, -, same, repaired⟩ :=
            exists_repaired (Zone.next_ne_broken whole) untangled.1
          rw [marred_kept, repaired, ih placed whole untangled.2, mended_kept, same]
      | pair c =>
          obtain ⟨rfl, stray, placed⟩ := placed
          have rest : repairEscapes (escapeSeparators (marred ps)) = escapeSeparators (mended ps) :=
            ih placed whole untangled
          change repairEscapes (escapeSeparators (marred (.pair c :: ps))) = _
          rw [escapeSeparators_marred stray, repairEscapes_stray stray.2.2, rest]
          exact (escapeSeparators_mended stray).symm

/-- With a doubled half of an escaped backslash the repaired text derails. -/
theorem derails_repairEscapes_marred (placed : Placed z ps)
    (whole : z.after (original ps) ≠ .broken) (tangled : ¬ Untangled z ps) :
    Derails (start z) (repairEscapes (pending z ++ escapeSeparators (marred ps)))
      (pending z ++ escapeSeparators (mended ps)) := by
  induction ps generalizing z with
  | nil => exact absurd trivial tangled
  | cons p ps ih =>
      cases p with
      | kept c =>
          by_cases shielded : z = .escaped → c = '\\' → Shields ps
          · obtain ⟨done, behind, same, repaired⟩ :=
              exists_repaired (Zone.next_ne_broken whole) shielded
            rw [marred_kept, repaired, mended_kept, same]
            refine Derails.behind ?_
            rw [behind]
            exact ih placed whole fun rest => tangled ⟨shielded, rest⟩
          · -- Three backslashes are left of two: an escaped one, and one before a stray character.
            obtain ⟨rfl, rfl, exposed⟩ : z = .escaped ∧ c = '\\' ∧ ¬ Shields ps := by
              simpa using shielded
            obtain ⟨d, more, rfl, stray, other⟩ := exists_exposed exposed
            have doubled : repairEscapes (pending .escaped ++
                  escapeSeparators (marred (.kept '\\' :: .kept d :: more))) =
                ['\\', '\\'] ++ '\\' :: d :: repairEscapes (escapeSeparators (marred more)) := by
              rw [marred_kept, marred_kept, escapeSeparators_cons (by decide),
                escapeSeparators_cons_of_not other]
              exact (repairEscapes_escape (by decide) _).trans
                (congrArg _ (repairEscapes_stray stray _))
            refine ⟨['\\', '\\'], d, _, escapeSeparators (mended (.kept d :: more)), doubled, ?_,
              by decide, stray⟩
            rw [mended_kept, escapeSeparators_cons (by decide)]
            rfl
      | pair c =>
          obtain ⟨rfl, stray, placed⟩ := placed
          have rest : Derails .inside (repairEscapes (escapeSeparators (marred ps)))
              (escapeSeparators (mended ps)) := ih placed whole tangled
          have stays : Zone.after .inside ['\\', '\\', c] = .inside := by
            obtain ⟨noQuote, noEscape, -⟩ := stray.plain true
            simp [Zone.after, Zone.next, noQuote, noEscape, Document.isEscapable]
          change Derails .inside (repairEscapes (escapeSeparators (marred (.pair c :: ps))))
            (escapeSeparators (mended (.pair c :: ps)))
          rw [escapeSeparators_marred stray, repairEscapes_stray stray.2.2,
            escapeSeparators_mended stray]
          change Derails .inside (['\\', '\\', c] ++ _) (['\\', '\\', c] ++ _)
          exact Derails.behind (stays.symm ▸ rest)

theorem derails_marred (placed : Placed z ps) (whole : z.after (original ps) ≠ .broken)
    (inserted : ∃ c, .pair c ∈ ps) :
    Derails z (escapeSeparators (marred ps)) (escapeSeparators (original ps)) := by
  induction ps generalizing z with
  | nil =>
      obtain ⟨c, member⟩ := inserted
      cases member
  | cons p ps ih =>
      cases p with
      | kept c =>
          have more : ∃ c, .pair c ∈ ps := by simpa using inserted
          rw [marred_kept, original_kept, ← List.singleton_append, escapeSeparators_append,
            ← List.singleton_append (l := original ps), escapeSeparators_append]
          refine Derails.behind ?_
          rw [after_escapeSeparators (Zone.next_ne_broken whole)]
          exact ih placed whole more
      | pair c =>
          obtain ⟨rfl, stray, -⟩ := placed
          rw [escapeSeparators_marred stray]
          exact ⟨[], c, _, _, rfl, rfl, rfl, stray.2.2⟩

end Tangles

section Surroundings

variable {z : Zone} {ps qs : List Piece}

theorem shields_append (nonempty : ps ≠ []) : Shields (ps ++ qs) ↔ Shields ps := by
  obtain ⟨p, more, rfl⟩ := List.exists_cons_of_ne_nil nonempty
  cases p <;> rfl

/-- Outside of strings no escape is open, so what follows there shields nothing. -/
theorem untangled_append (closed : z.after (original ps) = .outside) :
    Untangled z (ps ++ qs) ↔ Untangled z ps ∧ Untangled .outside qs := by
  induction ps generalizing z with
  | nil =>
      obtain rfl : z = .outside := closed
      exact iff_and_self.mpr fun _ => trivial
  | cons p ps ih =>
      cases p with
      | kept c =>
          have same : (z = .escaped → c = '\\' → Shields (ps ++ qs)) ↔
              (z = .escaped → c = '\\' → Shields ps) := by
            refine imp_congr_right fun escape => imp_congr_right fun backslash => shields_append ?_
            rintro rfl
            subst escape backslash
            cases closed
          rw [List.cons_append, Untangled, Untangled, same, ih closed, and_assoc]
      | pair c => exact ih closed

theorem untangled_bare {cs : List Char} (bare : ∀ c ∈ cs, Zone.IsBare c) :
    Untangled .outside (cs.map .kept) := by
  induction cs with
  | nil => trivial
  | cons c cs ih =>
      obtain ⟨stays, more⟩ := List.forall_mem_cons.mp bare
      refine ⟨nofun, ?_⟩
      rw [stays]
      exact ih more

theorem untangled_surrounded {before after : List Char} (bare : ∀ c ∈ before, Zone.IsBare c)
    (bareAfter : ∀ c ∈ after, Zone.IsBare c)
    (closed : Zone.after .outside (original ps) = .outside) :
    Untangled .outside (before.map .kept ++ (ps ++ after.map .kept)) ↔ Untangled .outside ps := by
  have opening : Zone.after .outside (original (before.map .kept)) = .outside := by
    rw [original_map, Zone.after_bare bare]
  rw [untangled_append opening, untangled_append closed]
  simp only [untangled_bare bare, untangled_bare bareAfter, true_and, and_true]

theorem edged_marred (placed : Placed .outside ps)
    (closed : Zone.after .outside (original ps) = .outside) (edged : Edged (original ps)) :
    Edged (marred ps) := by
  refine edged.congr ?_ ?_
  · cases ps with
    | nil => rfl
    | cons p ps =>
        cases p with
        | kept c => rfl
        | pair c => cases placed.1
  · rcases List.eq_nil_or_concat ps with rfl | ⟨body, last, rfl⟩
    · rfl
    · rw [List.concat_eq_append] at placed closed ⊢
      rw [marred_append, original_append]
      cases last with
      | kept c => exact List.getLast?_concat.trans List.getLast?_concat.symm
      | pair c =>
          have within := (placed_append.mp placed).2.1
          have same : original body = original (body ++ [.pair c]) := by
            rw [original_append]
            exact (List.append_nil _).symm
          rw [same, closed] at within
          cases within

end Surroundings

section Documents

variable {ps : List Piece} {v : Json}

/-- A text with printed ends is decided by the text with escaped separators and the repaired one. -/
theorem outcome_parse_edged {cs : List Char} (edged : Edged cs) :
    outcome (parse cs) = firstFound [outcome (Json.read false (escapeSeparators cs)),
      outcome (Json.read false (repairEscapes (escapeSeparators cs)))] := by
  have escaped := escapeSeparators_edged edged
  have whole := withoutFence_edged edged
  have same : bare cs = escapeSeparators cs := by
    rw [bare, whole, dropWhile_of_printed edged.head]
  rw [outcome_parse, same, escaped.trim_eq, (repairEscapes_edged escaped).trim_eq]

/-- No integer stops the reader before the first pair, as the document is read there. -/
theorem outcome_read_marred (placed : Placed .outside ps)
    (accepted : Json.Spells true v (original ps)) (inserted : ∃ c, .pair c ∈ ps) :
    outcome (Json.read false (escapeSeparators (marred ps))) = .ok none := by
  have whole : Zone.after .outside (original ps) ≠ .broken := by simp [accepted.after]
  exact (derails_marred placed whole inserted).outcome_eq accepted.lenient.escaped.read_eq

/-- Where no escaped backslash would be doubled, the repaired text is the mended one. -/
theorem parse_of_untangled (edged : Edged (marred ps)) (placed : Placed .outside ps)
    (accepted : Json.Spells true v (original ps)) (inserted : ∃ c, .pair c ∈ ps)
    (untangled : Untangled .outside ps) {literal : Json}
    (mends : Json.Spells true literal (mended ps)) : parse (marred ps) = .ok literal := by
  have whole : Zone.after .outside (original ps) ≠ .broken := by simp [accepted.after]
  have repaired : repairEscapes (escapeSeparators (marred ps)) = escapeSeparators (mended ps) :=
    repairEscapes_marred placed whole untangled
  rw [← outcome_eq_some_iff, outcome_parse_edged edged,
    outcome_read_marred placed accepted inserted, repaired, mends.lenient.escaped.read_eq]
  rfl

theorem parse_of_tangled (edged : Edged (marred ps)) (placed : Placed .outside ps)
    (accepted : Json.Spells true v (original ps)) (inserted : ∃ c, .pair c ∈ ps)
    (tangled : ¬ Untangled .outside ps) {literal : Json}
    (mends : Json.Spells true literal (mended ps)) : outcome (parse (marred ps)) = .ok none := by
  have whole : Zone.after .outside (original ps) ≠ .broken := by simp [accepted.after]
  have repaired : outcome (Json.read false (repairEscapes (escapeSeparators (marred ps)))) =
      .ok none :=
    (derails_repairEscapes_marred placed whole tangled).outcome_eq
      mends.lenient.escaped.read_eq
  rw [outcome_parse_edged edged, outcome_read_marred placed accepted inserted, repaired]
  rfl

/-- A document with pairs in its strings is parsed as if their backslashes were escaped, unless
a character that makes no escape follows an escaped backslash of the document: then it is
refused. -/
theorem parse_marred (accepted : Json.load (original ps) = .ok v) (placed : Placed .outside ps)
    (inserted : ∃ c, .pair c ∈ ps) :
    ∃ literal, Json.load (mended ps) = .ok literal ∧
      (Untangled .outside ps → parseWith false (marred ps) = .ok literal) ∧
        (¬ Untangled .outside ps → ∃ fault, fault.overlong? = none ∧
          parseWith false (marred ps) = .error fault) := by
  -- No pair stands among the blanks around the document, and parsing trims them.
  obtain ⟨before, text, after, spaces, afterSpaces, spelled, same⟩ :=
    (Json.read_eq_ok_iff true _ v).mp (Json.read_of_load accepted)
  obtain ⟨rest, rfl, same, onward⟩ := placed.skip same spaces.isBare
  obtain ⟨body, back, rfl, rfl, backText, within, behind⟩ := onward.split same
  have closed := spelled.after
  rw [closed] at behind
  obtain rfl := behind.bare backText afterSpaces.isBare
  have pairs : ∃ c, .pair c ∈ body := by simpa using inserted
  have edged := edged_marred within closed spelled.edged
  obtain ⟨literal, mends⟩ := spelled.mended rfl within
  have trimmed : Text.trim (marred (before.map .kept ++ (body ++ after.map .kept))) =
      marred body := by
    rw [marred_append, marred_append, marred_map,
      marred_map]
    exact Json.trim_spaced spaces afterSpaces edged
  have loads : Json.load (mended (before.map .kept ++ (body ++ after.map .kept))) =
      .ok literal := by
    refine Json.load_of_read ((Json.read_eq_ok_iff true _ _).mpr
      ⟨before, mended body, after, spaces, afterSpaces, mends, ?_⟩)
    rw [mended_append, mended_append, mended_map,
      mended_map]
  rw [untangled_surrounded spaces.isBare afterSpaces.isBare closed]
  refine ⟨literal, loads, fun untangled => ?_, fun tangled => ?_⟩
  · refine parseWith_of_parse ?_
    rw [← parse_trim, trimmed]
    exact parse_of_untangled edged within spelled pairs untangled mends
  · have refused := parse_of_tangled edged within spelled pairs tangled mends
    rw [← trimmed, parse_trim] at refused
    obtain ⟨fault, failed, syntactic⟩ := exists_fault_of_outcome refused
    exact ⟨fault, syntactic, (parseWith_false _).trans failed⟩

def entries (path pattern : String) : Json := .array [.string path, .string pattern]

theorem load_entries {cs : List Char} {path pattern : String}
    (text : cs = (Json.render .line (entries path pattern)).toList) :
    Json.load cs = .ok (entries path pattern) := by
  have distinct : (entries path pattern).Rereadable := ⟨trivial, trivial, trivial⟩
  rw [text]
  exact (Json.load_render .line distinct).trans rfl

def listing (folder : String) : List Piece :=
  ("[\"C:\\\\" ++ folder ++ "\", \"").toList.map .kept ++ .pair 'd' :: "+\"]".toList.map .kept

theorem parse_marred_listing :
    Json.load (original (listing "new")) = .ok (entries "C:\\new" "+") ∧
      Placed .outside (listing "new") ∧ (∃ c, .pair c ∈ listing "new") ∧
      Untangled .outside (listing "new") ∧
      parseWith false (marred (listing "new")) = .ok (entries "C:\\new" "\\d+") := by
  have accepted : Json.load (original (listing "new")) = .ok (entries "C:\\new" "+") :=
    load_entries (by decide +kernel)
  have placed : Placed .outside (listing "new") := by decide
  have inserted : ∃ c, .pair c ∈ listing "new" := ⟨'d', by decide⟩
  have untangled : Untangled .outside (listing "new") := by decide
  obtain ⟨literal, loads, reads, -⟩ := parse_marred accepted placed inserted
  have value : Json.load (mended (listing "new")) = .ok (entries "C:\\new" "\\d+") :=
    load_entries (by decide +kernel)
  obtain rfl := Except.ok.inj (loads.symm.trans value)
  exact ⟨accepted, placed, inserted, untangled, reads untangled⟩

/-- In this folder the escaped backslash is doubled, too, and nothing is read. -/
theorem parse_listing :
    Json.load (original (listing "Users")) = .ok (entries "C:\\Users" "+") ∧
      Placed .outside (listing "Users") ∧ (∃ c, .pair c ∈ listing "Users") ∧
      Json.load (mended (listing "Users")) = .ok (entries "C:\\Users" "\\d+") ∧
      ∃ fault, parseWith false (marred (listing "Users")) = .error fault := by
  refine ⟨load_entries (by decide +kernel), by decide, ⟨'d', by decide⟩,
    load_entries (by decide +kernel), ?_⟩
  have nothing : (parseWith false (marred (listing "Users"))).toOption.isSome = false := by
    decide +kernel
  cases parsed : parseWith false (marred (listing "Users")) with
  | error fault => exact ⟨fault, rfl⟩
  | ok v =>
      rw [parsed] at nothing
      cases nothing

end Documents

end PromptCanvas.Document
