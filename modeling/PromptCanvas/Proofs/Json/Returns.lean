import PromptCanvas.Proofs.Json.Overruns
import PromptCanvas.Proofs.Json.Strings
import PromptCanvas.Proofs.Text.Digits
import PromptCanvas.Proofs.Text.Returns

/-! # Readings of both ends of lines

Without strictness a text is read alike whether its lines end with newlines alone or with a
carriage return before each: both readings stop at the same place, and for an integer that is too
long both or neither (`stops_withReturns_iff`).  Only the strings that are read may differ. -/

set_option autoImplicit false

namespace PromptCanvas.Json

open Binary64.textWith (sign)
open Text (withReturns)

/-- Two readings that go on at the same place, or both fail, alike as to integers too long. -/
inductive Alike {α β : Type} : Scan α → Scan β → Prop
  | ok (v : α) (w : β) (rest : List Char) : Alike (.ok (v, withReturns rest)) (.ok (w, rest))
  | error {kind other : FaultKind}
      (same : (Fault.atStart kind).overlong? = (Fault.atStart other).overlong?)
      (rest back : List Char) : Alike (.error (kind, rest)) (.error (other, back))

theorem Alike.cases {α β : Type} {first : Scan α} {second : Scan β} (alike : Alike first second) :
    (∃ v w rest, first = .ok (v, withReturns rest) ∧ second = .ok (w, rest)) ∨
      ∃ kind other rest back, first = .error (kind, rest) ∧ second = .error (other, back) ∧
        (Fault.atStart kind).overlong? = (Fault.atStart other).overlong? := by
  cases alike with
  | ok v w rest => exact .inl ⟨v, w, rest, rfl, rfl⟩
  | error same rest back => exact .inr ⟨_, _, rest, back, rfl, rfl, same⟩

section Strings

variable {start origin : List Char}

theorem Alike.consUnit_left {first second : Scan (List Nat)} (alike : Alike first second)
    (unit : Nat) : Alike (consUnit unit first) second := by
  cases alike with
  | ok units others rest => exact .ok _ _ rest
  | error same rest back => exact .error same rest back

theorem Alike.consUnit {first second : Scan (List Nat)} (alike : Alike first second)
    (unit other : Nat) : Alike (consUnit unit first) (consUnit other second) := by
  cases alike with
  | ok units others rest => exact .ok _ _ rest
  | error same rest back => exact .error same rest back

theorem return_notMem_of_hexNumber? {cs : List Char} {unit : Nat}
    (digits : Text.hexNumber? cs = some unit) : '\n' ∉ cs ∧ '\r' ∉ cs := by
  constructor <;>
    · intro member
      have digit := Text.isSome_hexValue?_of_hexNumber? digits _ member
      cases digit

def fourDigits? : List Char → Option (Nat × List Char)
  | a :: b :: c :: d :: e :: others =>
      (Text.hexNumber? [a, b, c, d]).map fun unit => (unit, e :: others)
  | _ => none

theorem fourDigits?_eq_some_iff {more rest : List Char} {unit : Nat} :
    fourDigits? more = some (unit, rest) ↔ rest ≠ [] ∧ ∃ ds, ds.length = 4 ∧
      Text.hexNumber? ds = some unit ∧ more = ds ++ rest := by
  constructor
  · intro found
    unfold fourDigits? at found
    split at found
    · next a b c d e others =>
        obtain ⟨read, digits, same⟩ := Option.map_eq_some_iff.mp found
        cases same
        exact ⟨List.cons_ne_nil _ _, [a, b, c, d], rfl, digits, rfl⟩
    · cases found
  · rintro ⟨goes, ds, four, digits, rfl⟩
    obtain ⟨a, b, c, d, rfl⟩ := List.length_eq_four.mp four
    obtain ⟨e, others, rfl⟩ := List.exists_cons_of_ne_nil goes
    simp only [List.cons_append, List.nil_append, fourDigits?, digits, Option.map_some]

theorem fourDigits?_withReturns (more : List Char) : fourDigits? (withReturns more) =
    (fourDigits? more).map fun found => (found.1, withReturns found.2) := by
  cases found : fourDigits? more with
  | some parts =>
      obtain ⟨goes, ds, four, digits, rfl⟩ := fourDigits?_eq_some_iff.mp found
      refine fourDigits?_eq_some_iff.mpr ⟨?_, ds, four, digits, ?_⟩
      · rwa [ne_eq, ← List.isEmpty_iff, Text.isEmpty_withReturns, List.isEmpty_iff]
      · rw [Text.withReturns_append,
          Text.withReturns_of_unbroken (return_notMem_of_hexNumber? digits).1]
  | none =>
      refine Option.eq_none_iff_forall_ne_some.mpr fun parts again => ?_
      obtain ⟨goes, ds, four, digits, text⟩ := fourDigits?_eq_some_iff.mp again
      obtain ⟨own, rfl, same⟩ := Text.exists_of_withReturns
        (return_notMem_of_hexNumber? digits).2 text
      have later : own ≠ [] := by
        rintro rfl
        exact goes same
      rw [fourDigits?_eq_some_iff.mpr ⟨later, ds, four, digits, rfl⟩] at found
      cases found

theorem stringUnits_hex (start more : List Char) :
    stringUnits false start ('\\' :: 'u' :: more) =
      match fourDigits? more with
      | some (unit, rest) => consUnit unit (stringUnits false start rest)
      | none => .error (.badUnicodeEscape, 'u' :: more) := by
  rw [stringUnits.eq_def]
  simp only [if_true]
  rw [if_neg (by decide)]
  split
  · rw [fourDigits?]
    split <;> simp only [*, Option.map_some, Option.map_none]
  · next short =>
      rw [fourDigits?]
      exact short

/-- Another character after a backslash is an escape by itself or a fault. -/
theorem stringUnits_escape {e : Char} (other : e ≠ 'u') (start more : List Char) :
    stringUnits false start ('\\' :: e :: more) =
      match simpleEscape? e with
      | some plain => consUnit plain.toNat (stringUnits false start more)
      | none => .error (.badEscape, '\\' :: e :: more) := by
  cases escape : simpleEscape? e with
  | some plain => exact stringUnits_simple false start escape more
  | none =>
      rw [stringUnits, if_neg (by decide), if_pos rfl, escape]
      exact other

theorem stringUnits_withReturns (cs : List Char) :
    Alike (stringUnits false start (withReturns cs)) (stringUnits false origin cs) := by
  -- On the length, as an escape is taken as a whole.
  induction bound : cs.length using Nat.strong_induction_on generalizing cs with
  | _ n ih =>
      subst bound
      cases cs with
      | nil => exact .error rfl _ _
      | cons c cs =>
          by_cases quote : c = '"'
          · rw [quote, Text.withReturns_cons (by decide), stringUnits_quote false,
              stringUnits_quote false]
            exact .ok [] [] cs
          by_cases escape : c = '\\'
          · rw [escape, Text.withReturns_cons (by decide)]
            cases cs with
            | nil => exact .error rfl _ _
            | cons e more =>
                by_cases hex : e = 'u'
                · rw [hex, Text.withReturns_cons (by decide), stringUnits_hex, stringUnits_hex,
                    fourDigits?_withReturns]
                  cases found : fourDigits? more with
                  | none => exact .error rfl _ _
                  | some parts =>
                      obtain ⟨-, ds, -, -, rfl⟩ := fourDigits?_eq_some_iff.mp found
                      refine (ih _ ?_ _ rfl).consUnit _ _
                      simp only [List.length_cons, List.length_append]
                      omega
                by_cases newline : e = '\n'
                · rw [newline, Text.withReturns_newline, stringUnits_escape (by decide),
                    stringUnits_escape (by decide)]
                  exact .error rfl _ _
                · rw [Text.withReturns_cons newline, stringUnits_escape hex, stringUnits_escape hex]
                  cases simpleEscape? e with
                  | none => exact .error rfl _ _
                  | some plain =>
                      refine (ih _ ?_ _ rfl).consUnit _ _
                      simp only [List.length_cons]
                      omega
          · have alike := ih cs.length (Nat.lt_succ_self _) cs rfl
            rw [stringUnits_allowed quote escape rfl]
            by_cases newline : c = '\n'
            · rw [newline, Text.withReturns_newline, stringUnits_allowed (by decide) (by decide) rfl,
                stringUnits_allowed (by decide) (by decide) rfl]
              exact (alike.consUnit _ _).consUnit_left _
            · rw [Text.withReturns_cons newline, stringUnits_allowed quote escape rfl]
              exact alike.consUnit _ _

end Strings

section Scalars

theorem span_digits_withReturns (cs : List Char) : (withReturns cs).span Char.isDigit =
    ((cs.span Char.isDigit).1, withReturns (cs.span Char.isDigit).2) := by
  have unbroken : '\n' ∉ (cs.span Char.isDigit).1 := by
    rw [List.span_eq_takeWhile_dropWhile]
    exact fun member => absurd (List.mem_takeWhile_imp member) (by decide)
  rw [Text.span_withReturns (by decide), Text.withReturns_of_unbroken unbroken]

theorem wholeDigits?_withReturns (cs : List Char) : wholeDigits? (withReturns cs) =
    (wholeDigits? cs).map fun found => (found.1, withReturns found.2) := by
  have plain : ∀ text : List Char, (∀ c ∈ text.head?, c ≠ '0') → wholeDigits? text =
      if (text.span Char.isDigit).1 = [] then none else some (text.span Char.isDigit) := by
    intro text noZero
    unfold wholeDigits?
    split
    · exact absurd rfl (noZero '0' rfl)
    · split
      · next cut => rw [cut, if_pos rfl]
      · next other => rw [if_neg fun empty => other _ (Prod.ext empty rfl)]
  by_cases zero : cs.head? = some '0'
  · obtain ⟨rest, rfl⟩ := List.head?_eq_some_iff.mp zero
    rfl
  · have other : ∀ c ∈ cs.head?, c ≠ '0' := fun c head same => zero (same ▸ head)
    rw [plain cs other, plain _ (Text.head?_withReturns_ne (by decide) other),
      span_digits_withReturns]
    split <;> rfl

theorem fractionDigits_withReturns (cs : List Char) : fractionDigits (withReturns cs) =
    ((fractionDigits cs).1, withReturns (fractionDigits cs).2) := by
  by_cases point : cs.head? = some '.'
  · obtain ⟨rest, rfl⟩ := List.head?_eq_some_iff.mp point
    rw [Text.withReturns_cons (by decide), fractionDigits, fractionDigits, span_digits_withReturns]
    rcases rest.span Char.isDigit with ⟨_ | ⟨d, ds⟩, after⟩
    · exact congrArg (Prod.mk []) (Text.withReturns_cons (by decide) rest).symm
    · rfl
  · have other : ∀ c ∈ cs.head?, c ≠ '.' := fun c head same => point (same ▸ head)
    rw [fractionDigits_of_ne other,
      fractionDigits_of_ne (Text.head?_withReturns_ne (by decide) other)]

theorem signOf_withReturns (cs : List Char) : Numeral.signOf (withReturns cs) =
    ((Numeral.signOf cs).1, withReturns (Numeral.signOf cs).2) := by
  have plain : ∀ text : List Char, (∀ c ∈ text.head?, c ≠ '-') → (∀ c ∈ text.head?, c ≠ '+') →
      Numeral.signOf text = (false, text) := by
    intro text noMinus noPlus
    unfold Numeral.signOf
    split
    · exact absurd rfl (noMinus '-' rfl)
    · exact absurd rfl (noPlus '+' rfl)
    · rfl
  by_cases minus : cs.head? = some '-'
  · obtain ⟨rest, rfl⟩ := List.head?_eq_some_iff.mp minus
    rfl
  by_cases plus : cs.head? = some '+'
  · obtain ⟨rest, rfl⟩ := List.head?_eq_some_iff.mp plus
    rfl
  have noMinus : ∀ c ∈ cs.head?, c ≠ '-' := fun c head same => minus (same ▸ head)
  have noPlus : ∀ c ∈ cs.head?, c ≠ '+' := fun c head same => plus (same ▸ head)
  rw [plain cs noMinus noPlus, plain _ (Text.head?_withReturns_ne (by decide) noMinus)
    (Text.head?_withReturns_ne (by decide) noPlus)]

theorem exponentPart?_withReturns (cs : List Char) : exponentPart? (withReturns cs) =
    (exponentPart? cs).map fun found => (found.1, withReturns found.2) := by
  cases cs with
  | nil => rfl
  | cons c cs =>
      by_cases newline : c = '\n'
      · rw [newline]
        rfl
      · rw [Text.withReturns_cons newline, exponentPart?, exponentPart?]
        split
        · rw [signOf_withReturns]
          obtain ⟨negative, ds⟩ := Numeral.signOf cs
          dsimp only
          rw [span_digits_withReturns]
          rcases ds.span Char.isDigit with ⟨_ | ⟨d, digits⟩, after⟩ <;> rfl
        · rfl

theorem afterWhole_withReturns (negative : Bool) (whole cs : List Char) :
    afterWhole negative whole (withReturns cs) =
      ((afterWhole negative whole cs).1, withReturns (afterWhole negative whole cs).2) := by
  unfold afterWhole
  rw [fractionDigits_withReturns]
  dsimp only
  rw [exponentPart?_withReturns]
  cases exponentPart? (fractionDigits cs).2 with
  | none =>
      simp only [Option.map_none]
      split <;> rfl
  | some found => rfl

theorem scanNumber?_withReturns (cs : List Char) : scanNumber? (withReturns cs) =
    (scanNumber? cs).map fun found => (found.1, withReturns found.2) := by
  have unsigned : ∀ (negative : Bool) (text : List Char),
      ((wholeDigits? (withReturns text)).map fun parts => afterWhole negative parts.1 parts.2) =
        ((wholeDigits? text).map fun parts => afterWhole negative parts.1 parts.2).map
          fun found => (found.1, withReturns found.2) := by
    intro negative text
    rw [wholeDigits?_withReturns, Option.map_map, Option.map_map]
    refine congrArg (fun f => Option.map f _) (funext fun parts => ?_)
    exact afterWhole_withReturns negative parts.1 parts.2
  by_cases minus : cs.head? = some '-'
  · obtain ⟨rest, rfl⟩ := List.head?_eq_some_iff.mp minus
    exact unsigned true rest
  · have other : ∀ c ∈ cs.head?, c ≠ '-' := fun c head same => minus (same ▸ head)
    have first : scanNumber? (sign false ++ cs) = _ := scanNumber?_signed other
    have second : scanNumber? (sign false ++ withReturns cs) = _ :=
      scanNumber?_signed (Text.head?_withReturns_ne (by decide) other)
    exact second.trans ((unsigned false cs).trans (congrArg _ first.symm))

theorem findWord_withReturns {words : List (List Char × Json)}
    (plain : ∀ l ∈ words, '\n' ∉ l.1 ∧ '\r' ∉ l.1) (cs : List Char) :
    (words.findSome? fun l => (l.1.isPrefixOf? (withReturns cs)).map fun rest => (l.2, rest)) =
      (words.findSome? fun l => (l.1.isPrefixOf? cs).map fun rest => (l.2, rest)).map
        fun found => (found.1, withReturns found.2) := by
  induction words with
  | nil => rfl
  | cons l words ih =>
      obtain ⟨⟨noNewline, noReturn⟩, others⟩ := List.forall_mem_cons.mp plain
      rw [List.findSome?_cons, List.findSome?_cons, Text.isPrefixOf?_withReturns noNewline noReturn,
        ih others]
      cases l.1.isPrefixOf? cs <;> rfl

theorem scanScalar_withReturns (cs : List Char) :
    Alike (scanScalar (withReturns cs)) (scanScalar cs) := by
  unfold scanScalar
  rw [findWord_withReturns (by decide), scanNumber?_withReturns]
  cases literals.findSome? fun l => (l.1.isPrefixOf? cs).map fun rest => (l.2, rest) with
  | some found => exact .ok _ _ _
  | none =>
      cases scanNumber? cs with
      | none => exact .error rfl _ _
      | some found =>
          obtain ⟨n | v, rest⟩ := found
          · exact .error rfl _ _
          · exact .ok v v rest

end Scalars

section Values

theorem skipSpace_withReturns (cs : List Char) :
    skipSpace (withReturns cs) = withReturns (skipSpace cs) :=
  Text.dropWhile_withReturns (by decide) cs

theorem scanString_withReturns (start origin cs : List Char) :
    Alike (scanString false start (withReturns cs)) (scanString false origin cs) := by
  unfold scanString
  have alike : Alike (stringUnits false start (withReturns cs)) (stringUnits false origin cs) :=
    stringUnits_withReturns cs
  rcases alike.cases with
    ⟨units, others, rest, first, second⟩ | ⟨_, _, rest, back, first, second, same⟩ <;>
    rw [first, second]
  · exact .ok _ _ rest
  · exact .error same rest back

theorem scanValue_items {depth : Nat} {cs : List Char} (goes : (skipSpace cs).head? ≠ some ']') :
    scanValue false (depth + 1) ('[' :: cs) =
      match scanItems false depth (skipSpace cs) with
      | .ok (items, rest) => .ok (.array items, rest)
      | .error e => .error e := by
  rw [scanValue]
  split
  · next closed => exact absurd (congrArg List.head? closed) goes
  · rfl

theorem scanValue_members {depth : Nat} {cs : List Char}
    (goes : (skipSpace cs).head? ≠ some '\x7d') :
    scanValue false (depth + 1) ('\x7b' :: cs) =
      match scanMembers false depth (skipSpace cs) with
      | .ok (fields, rest) => .ok (.ofFields fields, rest)
      | .error e => .error e := by
  rw [scanValue]
  split
  · next closed => exact absurd (congrArg List.head? closed) goes
  · rfl

structure AlikeAt (depth : Nat) : Prop where
  value : ∀ cs, Alike (scanValue false depth (withReturns cs)) (scanValue false depth cs)
  items : ∀ cs, Alike (scanItems false depth (withReturns cs)) (scanItems false depth cs)
  members : ∀ cs, Alike (scanMembers false depth (withReturns cs)) (scanMembers false depth cs)

variable {depth : Nat} (alike : AlikeAt depth)

include alike

theorem AlikeAt.scanItems_succ (cs : List Char) :
    Alike (scanItems false (depth + 1) (withReturns cs)) (scanItems false (depth + 1) cs) := by
  rw [scanItems, scanItems]
  rcases (alike.value cs).cases with
    ⟨v, w, rest, first, second⟩ | ⟨_, _, rest, back, first, second, same⟩ <;>
    rw [first, second]
  · dsimp only
    rw [skipSpace_withReturns]
    split
    · next behind closed =>
        obtain ⟨own, text, rfl⟩ := Text.exists_cons_of_withReturns (by decide) closed
        rw [text]
        exact .ok _ _ own
    · next behind comma =>
        obtain ⟨own, text, rfl⟩ := Text.exists_cons_of_withReturns (by decide) comma
        rw [text, skipSpace_withReturns]
        simp only
        rcases (alike.items (skipSpace own)).cases with
          ⟨vs, ws, rest, first, second⟩ | ⟨_, _, rest, back, first, second, same⟩ <;>
          rw [first, second]
        · exact .ok _ _ rest
        · exact .error same rest back
    · next noClose noComma =>
        split
        · next own text =>
            exact absurd (text ▸ Text.withReturns_cons (by decide) own) (noClose _)
        · next own text =>
            exact absurd (text ▸ Text.withReturns_cons (by decide) own) (noComma _)
        · exact .error rfl _ _
  · exact .error same rest back

theorem AlikeAt.scanAfterField (field other : String × Json) (rest : List Char) :
    Alike (scanAfterField false depth field (withReturns rest))
      (scanAfterField false depth other rest) := by
  unfold Json.scanAfterField
  rw [skipSpace_withReturns]
  split
  · next behind closed =>
      obtain ⟨own, text, rfl⟩ := Text.exists_cons_of_withReturns (by decide) closed
      rw [text]
      exact .ok _ _ own
  · next behind comma =>
      obtain ⟨own, text, rfl⟩ := Text.exists_cons_of_withReturns (by decide) comma
      rw [text, skipSpace_withReturns]
      simp only
      rcases (alike.members (skipSpace own)).cases with
        ⟨vs, ws, rest, first, second⟩ | ⟨_, _, rest, back, first, second, same⟩ <;>
        rw [first, second]
      · exact .ok _ _ rest
      · exact .error same rest back
  · next noClose noComma =>
      split
      · next own text =>
          exact absurd (text ▸ Text.withReturns_cons (by decide) own) (noClose _)
      · next own text =>
          exact absurd (text ▸ Text.withReturns_cons (by decide) own) (noComma _)
      · exact .error rfl _ _

theorem AlikeAt.scanMembers_succ (cs : List Char) :
    Alike (scanMembers false (depth + 1) (withReturns cs)) (scanMembers false (depth + 1) cs) := by
  by_cases opened : cs.head? = some '"'
  · obtain ⟨more, rfl⟩ := List.head?_eq_some_iff.mp opened
    rw [Text.withReturns_cons (by decide), scanMembers, scanMembers]
    rcases (scanString_withReturns ('"' :: withReturns more) ('"' :: more) more).cases with
      ⟨key, name, rest, first, second⟩ | ⟨_, _, rest, back, first, second, same⟩ <;>
      rw [first, second]
    · dsimp only
      rw [skipSpace_withReturns]
      split
      · next behind colon =>
          obtain ⟨own, text, rfl⟩ := Text.exists_cons_of_withReturns (by decide) colon
          rw [text, skipSpace_withReturns]
          simp only
          rcases (alike.value (skipSpace own)).cases with
            ⟨v, w, rest, first, second⟩ | ⟨_, _, rest, back, first, second, same⟩ <;>
            rw [first, second]
          · exact alike.scanAfterField (key, v) (name, w) rest
          · exact .error same rest back
      · next noColon =>
          split
          · next own text =>
              exact absurd (text ▸ Text.withReturns_cons (by decide) own) (noColon _)
          · exact .error rfl _ _
    · exact .error same rest back
  · have fault : ∀ text : List Char, text.head? ≠ some '"' →
        scanMembers false (depth + 1) text = .error (.expectingName, text) := by
      intro text other
      rw [scanMembers.eq_def]
      dsimp only
      split
      · exact absurd rfl other
      · rfl
    have other := Text.head?_withReturns_ne (c := '"') (by decide)
      fun c head same => opened (same ▸ head)
    rw [fault cs opened, fault _ fun head => other '"' head rfl]
    exact .error rfl _ _

theorem AlikeAt.scanArray (cs : List Char) :
    Alike (scanValue false (depth + 1) ('[' :: withReturns cs))
      (scanValue false (depth + 1) ('[' :: cs)) := by
  by_cases closed : (skipSpace cs).head? = some ']'
  · obtain ⟨rest, text⟩ := List.head?_eq_some_iff.mp closed
    rw [scanValue, scanValue, skipSpace_withReturns, text, Text.withReturns_cons (by decide)]
    exact .ok _ _ rest
  · have goes : (skipSpace (withReturns cs)).head? ≠ some ']' := by
      rwa [skipSpace_withReturns, ne_eq, Text.head?_withReturns_iff (by decide) (by decide)]
    rw [scanValue_items closed, scanValue_items goes, skipSpace_withReturns]
    rcases (alike.items (skipSpace cs)).cases with
      ⟨vs, ws, rest, first, second⟩ | ⟨_, _, rest, back, first, second, same⟩ <;>
      rw [first, second]
    · exact .ok _ _ rest
    · exact .error same rest back

theorem AlikeAt.scanObject (cs : List Char) :
    Alike (scanValue false (depth + 1) ('\x7b' :: withReturns cs))
      (scanValue false (depth + 1) ('\x7b' :: cs)) := by
  by_cases closed : (skipSpace cs).head? = some '\x7d'
  · obtain ⟨rest, text⟩ := List.head?_eq_some_iff.mp closed
    rw [scanValue, scanValue, skipSpace_withReturns, text, Text.withReturns_cons (by decide)]
    exact .ok _ _ rest
  · have goes : (skipSpace (withReturns cs)).head? ≠ some '\x7d' := by
      rwa [skipSpace_withReturns, ne_eq, Text.head?_withReturns_iff (by decide) (by decide)]
    rw [scanValue_members closed, scanValue_members goes, skipSpace_withReturns]
    rcases (alike.members (skipSpace cs)).cases with
      ⟨vs, ws, rest, first, second⟩ | ⟨_, _, rest, back, first, second, same⟩ <;>
      rw [first, second]
    · exact .ok _ _ rest
    · exact .error same rest back

theorem AlikeAt.scanValue_succ (cs : List Char) :
    Alike (scanValue false (depth + 1) (withReturns cs)) (scanValue false (depth + 1) cs) := by
  by_cases quote : cs.head? = some '"'
  · obtain ⟨more, rfl⟩ := List.head?_eq_some_iff.mp quote
    rw [Text.withReturns_cons (by decide), scanValue, scanValue]
    rcases (scanString_withReturns ('"' :: withReturns more) ('"' :: more) more).cases with
      ⟨s, t, rest, first, second⟩ | ⟨_, _, rest, back, first, second, same⟩ <;>
      rw [first, second]
    · exact .ok _ _ rest
    · exact .error same rest back
  by_cases bracket : cs.head? = some '['
  · obtain ⟨more, rfl⟩ := List.head?_eq_some_iff.mp bracket
    exact alike.scanArray more
  by_cases brace : cs.head? = some '\x7b'
  · obtain ⟨more, rfl⟩ := List.head?_eq_some_iff.mp brace
    exact alike.scanObject more
  have scalar : ∀ text : List Char, text.head? ≠ some '"' → text.head? ≠ some '[' →
      text.head? ≠ some '\x7b' → scanValue false (depth + 1) text = scanScalar text := by
    intro text noQuote noBracket noBrace
    rw [scanValue.eq_def]
    dsimp only
    split
    · exact absurd rfl noQuote
    · exact absurd rfl noBracket
    · exact absurd rfl noBrace
    · rfl
  have other : ∀ c : Char, c ≠ '\n' → c ≠ '\r' → cs.head? ≠ some c →
      (withReturns cs).head? ≠ some c := fun c noNewline noReturn absent =>
    fun head => absent ((Text.head?_withReturns_iff noNewline noReturn).mp head)
  rw [scalar cs quote bracket brace, scalar _ (other _ (by decide) (by decide) quote)
    (other _ (by decide) (by decide) bracket) (other _ (by decide) (by decide) brace)]
  exact scanScalar_withReturns cs

omit alike

theorem alikeAt (depth : Nat) : AlikeAt depth := by
  induction depth with
  | zero =>
      refine ⟨fun cs => ?_, fun cs => ?_, fun cs => ?_⟩
      · rw [scanValue, scanValue]
        exact .error rfl _ _
      · rw [scanItems, scanItems]
        exact .error rfl _ _
      · rw [scanMembers, scanMembers]
        exact .error rfl _ _
  | succ depth alike => exact ⟨alike.scanValue_succ, alike.scanItems_succ, alike.scanMembers_succ⟩

end Values

section Documents

variable {n : Overlong}

theorem stops_withReturns_iff (cs : List Char) :
    Stops false n (withReturns cs) ↔ Stops false n cs := by
  obtain ⟨depth, deep, deeper⟩ : ∃ depth, 2 * cs.length ≤ depth ∧
      2 * (withReturns cs).length ≤ depth := ⟨_, Nat.le_max_left _ _, Nat.le_max_right _ _⟩
  rw [← scan_iff_stops deep, ← scan_iff_stops deeper, skipSpace_withReturns]
  rcases ((alikeAt depth).value (skipSpace cs)).cases with
    ⟨v, w, rest, first, second⟩ | ⟨kind, other, rest, back, first, second, same⟩
  · simp [first, second]
  · have overrun := congrArg (· = some n) same
    simp only [overlong?_eq_some_iff, Fault.atStart, eq_iff_iff] at overrun
    simpa [first, second] using overrun

theorem read_withReturns_iff (cs : List Char) :
    (∃ v, read false (withReturns cs) = .ok v) ↔ ∃ v, read false cs = .ok v := by
  obtain ⟨depth, deep, deeper⟩ : ∃ depth, 2 * cs.length ≤ depth ∧
      2 * (withReturns cs).length ≤ depth := ⟨_, Nat.le_max_left _ _, Nat.le_max_right _ _⟩
  simp only [read_eq_ok_iff, ← scan_iff_spelled deep, ← scan_iff_spelled deeper,
    skipSpace_withReturns]
  rcases ((alikeAt depth).value (skipSpace cs)).cases with
    ⟨v, w, rest, first, second⟩ | ⟨kind, other, rest, back, first, second, same⟩
  · have ends : skipSpace (withReturns rest) = [] ↔ skipSpace rest = [] := by
      rw [skipSpace_withReturns, ← List.isEmpty_iff, Text.isEmpty_withReturns, List.isEmpty_iff]
    simp [first, second, ends]
  · simp [first, second]

end Documents

end PromptCanvas.Json
