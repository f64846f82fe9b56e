import PromptCanvas.Proofs.Json.RoundTrip

/-! # The tokens of JSON texts

The grammar of strings and scalars, and that the reader takes the tokens of this
grammar and no other text: `spells_of_stringUnits` and `SpellsUnits.stringUnits_append`
for strings, and for scalars, which nothing ends but the text after them,
`spells_of_scanScalar` and `SpellsScalar.scanScalar_append`. -/

set_option autoImplicit false

namespace PromptCanvas.Json

open Numeral (NoDigitHead Whole Fraction)

section Strings

variable {strict : Bool} {units : List Nat}

/-- The text between the marks of a string, and the code units that it stands for. -/
inductive SpellsUnits (strict : Bool) : List Nat → List Char → Prop
  | nil : SpellsUnits strict [] []
  | plain {c : Char} {units : List Nat} {cs : List Char} (noQuote : c ≠ '"')
      (noEscape : c ≠ '\\') (allowed : (strict && decide (c.toNat < 0x20)) = false)
      (more : SpellsUnits strict units cs) : SpellsUnits strict (c.toNat :: units) (c :: cs)
  | simple {e plain : Char} {units : List Nat} {cs : List Char}
      (escape : simpleEscape? e = some plain) (more : SpellsUnits strict units cs) :
      SpellsUnits strict (plain.toNat :: units) ('\\' :: e :: cs)
  | unicode {a b c d : Char} {unit : Nat} {units : List Nat} {cs : List Char}
      (digits : Text.hexNumber? [a, b, c, d] = some unit) (more : SpellsUnits strict units cs) :
      SpellsUnits strict (unit :: units) ('\\' :: 'u' :: a :: b :: c :: d :: cs)

theorem consUnit_eq_ok_iff {unit : Nat} {scan : Scan (List Nat)} {rest : List Char} :
    consUnit unit scan = .ok (units, rest) ↔
      ∃ more, scan = .ok (more, rest) ∧ units = unit :: more := by
  rcases scan with fault | ⟨more, after⟩
  · simp [consUnit]
  · simp only [consUnit, Except.ok.injEq, Prod.mk.injEq, eq_comm (a := unit :: more)]
    constructor
    · rintro ⟨rfl, rfl⟩
      exact ⟨more, ⟨rfl, rfl⟩, rfl⟩
    · rintro ⟨_, ⟨rfl, rfl⟩, rfl⟩
      exact ⟨rfl, rfl⟩

theorem stringUnits_four {start : List Char} {a b c d : Char} {unit : Nat} {rest : List Char}
    (digits : Text.hexNumber? [a, b, c, d] = some unit) (more : rest ≠ []) :
    stringUnits strict start ('\\' :: 'u' :: a :: b :: c :: d :: rest) =
      consUnit unit (stringUnits strict start rest) := by
  obtain ⟨e, others, rfl⟩ := List.exists_cons_of_ne_nil more
  rw [stringUnits, if_neg (by decide), if_pos rfl, digits]

theorem stringUnits_allowed {start : List Char} {c : Char} {rest : List Char} (noQuote : c ≠ '"')
    (noEscape : c ≠ '\\') (allowed : (strict && decide (c.toNat < 0x20)) = false) :
    stringUnits strict start (c :: rest) = consUnit c.toNat (stringUnits strict start rest) := by
  rw [stringUnits.eq_def]
  simp only [if_neg noQuote, if_neg noEscape, allowed, Bool.false_eq_true, if_false]

/-- Reading stops at the closing mark, or it takes what spells one unit and goes on. -/
theorem stringUnits_cases {start cs rest : List Char}
    (read : stringUnits strict start cs = .ok (units, rest)) :
    (cs = '"' :: rest ∧ units = []) ∨
      ∃ unit others front more, units = unit :: others ∧ cs = front ++ more ∧ front ≠ [] ∧
        stringUnits strict start more = .ok (others, rest) ∧
          ∀ body, SpellsUnits strict others body →
            SpellsUnits strict (unit :: others) (front ++ body) := by
  rw [stringUnits.eq_def] at read
  split at read
  · cases read
  · next c tail =>
      split at read
      · next quote =>
          cases read
          exact .inl ⟨by rw [quote], rfl⟩
      · next noQuote =>
          refine .inr ?_
          split at read
          · next escape =>
              subst escape
              split at read
              · cases read
              · split at read
                · next a b c d e more =>
                    split at read
                    · next unit digits =>
                        obtain ⟨others, inside, rfl⟩ := consUnit_eq_ok_iff.mp read
                        exact ⟨unit, others, ['\\', 'u', a, b, c, d], e :: more, rfl, rfl,
                          List.cons_ne_nil _ _, inside, fun _ => .unicode digits⟩
                    · cases read
                · cases read
              · next e more _ =>
                  split at read
                  · next plain simple =>
                      obtain ⟨others, inside, rfl⟩ := consUnit_eq_ok_iff.mp read
                      exact ⟨plain.toNat, others, ['\\', e], more, rfl, rfl,
                        List.cons_ne_nil _ _, inside, fun _ => .simple simple⟩
                  · cases read
          · next noEscape =>
              split at read
              · cases read
              · next allowed =>
                  obtain ⟨others, inside, rfl⟩ := consUnit_eq_ok_iff.mp read
                  exact ⟨c.toNat, others, [c], tail, rfl, rfl, List.cons_ne_nil _ _, inside,
                    fun _ => .plain noQuote noEscape (by simpa using allowed)⟩

theorem spells_of_stringUnits {start : List Char} (cs : List Char) :
    ∀ {units rest}, stringUnits strict start cs = .ok (units, rest) →
      ∃ body, cs = body ++ '"' :: rest ∧ SpellsUnits strict units body := by
  induction size : cs.length using Nat.strongRecOn generalizing cs with
  | ind n ih =>
      intro units rest read
      rcases stringUnits_cases read with ⟨rfl, rfl⟩ |
        ⟨unit, others, front, more, rfl, rfl, taken, inside, spells⟩
      · exact ⟨[], rfl, .nil⟩
      · have shorter : more.length < n := by
          have := List.length_pos_iff.mpr taken
          rw [List.length_append] at size
          omega
        obtain ⟨body, rfl, spelled⟩ := ih _ shorter more rfl inside
        exact ⟨front ++ body, by rw [List.append_assoc], spells body spelled⟩

theorem SpellsUnits.stringUnits_append {body : List Char} (spelled : SpellsUnits strict units body)
    (start rest : List Char) :
    stringUnits strict start (body ++ '"' :: rest) = .ok (units, rest) := by
  induction spelled with
  | nil => exact stringUnits_quote strict start rest
  | plain noQuote noEscape allowed _ ih =>
      rw [List.cons_append, stringUnits_allowed noQuote noEscape allowed, ih]
      rfl
  | simple escape _ ih =>
      rw [List.cons_append, List.cons_append, stringUnits_simple strict start escape, ih]
      rfl
  | unicode digits _ ih =>
      simp only [List.cons_append]
      rw [stringUnits_four digits (by simp), ih]
      rfl

inductive SpellsString (strict : Bool) : String → List Char → Prop
  | marked {units : List Nat} {body : List Char} (spelled : SpellsUnits strict units body) :
      SpellsString strict (String.ofList (Text.charsOfUnits units)) ('"' :: (body ++ ['"']))

theorem spells_of_scanString {start cs rest : List Char} {s : String}
    (read : scanString strict start cs = .ok (s, rest)) :
    ∃ front, '"' :: cs = front ++ rest ∧ SpellsString strict s front := by
  unfold scanString at read
  split at read
  · next units after found =>
      cases read
      obtain ⟨body, rfl, spelled⟩ := spells_of_stringUnits _ found
      exact ⟨'"' :: (body ++ ['"']), by simp, .marked spelled⟩
  · cases read

theorem SpellsString.scanString_append {s : String} {front : List Char}
    (spelled : SpellsString strict s front) (start rest : List Char) :
    ∃ more, front ++ rest = '"' :: more ∧ scanString strict start more = .ok (s, rest) := by
  cases spelled with
  | @marked units body spelled =>
      refine ⟨body ++ '"' :: rest, by simp, ?_⟩
      rw [scanString, spelled.stringUnits_append]

end Strings

section Numbers

open Binary64.textWith (sign)

inductive Power : List Char → Prop
  | absent : Power []
  | marked {mark : Char} {sign ds : List Char} (letter : mark = 'e' ∨ mark = 'E')
      (signed : sign = [] ∨ sign = ['+'] ∨ sign = ['-']) (nonempty : ds ≠ [])
      (all : ds.all Char.isDigit = true) : Power (mark :: (sign ++ ds))

theorem span_isDigit (cs : List Char) :
    ∃ ds rest, cs.span Char.isDigit = (ds, rest) ∧ cs = ds ++ rest ∧
      ds.all Char.isDigit = true ∧ NoDigitHead rest := by
  refine ⟨cs.takeWhile Char.isDigit, cs.dropWhile Char.isDigit,
    List.span_eq_takeWhile_dropWhile _ _,
    (List.takeWhile_append_dropWhile).symm, List.all_takeWhile, fun c head => ?_⟩
  have stop := List.head?_dropWhile_not Char.isDigit cs
  rw [Option.mem_def.mp head] at stop
  simpa using stop

theorem whole_of_wholeDigits? {cs whole rest : List Char}
    (found : wholeDigits? cs = some (whole, rest)) :
    Whole whole ∧ cs = whole ++ rest ∧ (1 < whole.length → NoDigitHead rest) := by
  unfold wholeDigits? at found
  split at found
  · cases found
    exact ⟨.zero, rfl, fun long => absurd long (by decide)⟩
  · next noZero =>
      obtain ⟨ds, after, cut, text, all, stop⟩ := span_isDigit cs
      rw [cut] at found
      cases ds with
      | nil => cases found
      | cons d ds =>
          cases found
          refine ⟨.digits (fun zero => noZero (ds ++ rest) ?_) all, text, fun _ => stop⟩
          rw [text, zero]
          rfl

theorem fraction_fractionDigits (cs : List Char) :
    ∃ fraction rest, Fraction fraction ∧ cs = fraction ++ rest ∧
      fractionDigits cs = (fraction.drop 1, rest) := by
  by_cases point : cs.head? = some '.'
  · obtain ⟨after, rfl⟩ : ∃ after, cs = '.' :: after := by
      cases cs with
      | nil => cases point
      | cons c after => exact ⟨after, by rw [Option.some.inj point]⟩
    obtain ⟨ds, rest, cut, text, all, -⟩ := span_isDigit after
    cases ds with
    | nil => exact ⟨[], '.' :: after, .absent, rfl, by rw [fractionDigits, cut]; rfl⟩
    | cons d ds =>
        exact ⟨'.' :: d :: ds, rest, .digits (by simp) all, by rw [text]; rfl,
          by rw [fractionDigits, cut]; rfl⟩
  · refine ⟨[], cs, .absent, rfl, fractionDigits_of_ne ?_⟩
    rintro c head rfl
    exact point head

theorem signOf_eq (cs : List Char) :
    ∃ sign, (sign = [] ∨ sign = ['+'] ∨ sign = ['-']) ∧ cs = sign ++ (Numeral.signOf cs).2 := by
  unfold Numeral.signOf
  split
  · exact ⟨['-'], by simp, rfl⟩
  · exact ⟨['+'], by simp, rfl⟩
  · exact ⟨[], by simp, rfl⟩

theorem signOf_append {sign ds : List Char} (signed : sign = [] ∨ sign = ['+'] ∨ sign = ['-'])
    (nonempty : ds ≠ []) (all : ds.all Char.isDigit = true) (rest : List Char) :
    Numeral.signOf (sign ++ (ds ++ rest)) = (decide (sign = ['-']), ds ++ rest) := by
  obtain ⟨d, more, rfl⟩ := List.exists_cons_of_ne_nil nonempty
  rw [List.all_cons, Bool.and_eq_true] at all
  rcases signed with rfl | rfl | rfl
  · rw [List.nil_append, List.cons_append, Numeral.signOf]
    · rfl
    · exact fun after same => ne_of_isDigit all.1 rfl (List.cons.inj same).1
    · exact fun after same => ne_of_isDigit all.1 rfl (List.cons.inj same).1
  · rfl
  · rfl

theorem Power.exponentPart?_append {exponent : List Char} (power : Power exponent)
    (nonempty : exponent ≠ []) :
    ∃ e, ∀ rest, NoDigitHead rest → exponentPart? (exponent ++ rest) = some (e, rest) := by
  cases power with
  | absent => exact absurd rfl nonempty
  | @marked mark sign ds letter signed digits all =>
      refine ⟨if decide (sign = ['-']) then -(Numeral.natOf ds : Int) else Numeral.natOf ds,
        fun rest stop => ?_⟩
      have either : (mark = 'e' || mark = 'E') = true := by simpa using letter
      obtain ⟨d, more, rfl⟩ := List.exists_cons_of_ne_nil digits
      simp only [List.cons_append, List.append_assoc, exponentPart?, either, if_true]
      rw [← List.cons_append, signOf_append signed digits all, Numeral.span_digits all stop]

theorem power_of_exponentPart? {cs rest : List Char} {e : Int}
    (found : exponentPart? cs = some (e, rest)) :
    ∃ exponent, Power exponent ∧ exponent ≠ [] ∧ cs = exponent ++ rest ∧ NoDigitHead rest := by
  cases cs with
  | nil => cases found
  | cons mark after =>
      obtain ⟨sign, signed, text⟩ := signOf_eq after
      obtain ⟨ds, more, cut, digits, all, stop⟩ := span_isDigit (Numeral.signOf after).2
      simp only [exponentPart?, cut] at found
      split at found
      · next letter =>
          cases ds with
          | nil => cases found
          | cons d ds =>
              simp only [Option.some.injEq, Prod.mk.injEq] at found
              obtain ⟨-, rfl⟩ := found
              refine ⟨mark :: (sign ++ d :: ds), .marked (by simpa using letter) signed (by simp)
                all, by simp, ?_, stop⟩
              rw [List.cons_append, List.append_assoc, ← digits, ← text]
      · cases found

def numberOf (negative : Bool) (whole fraction exponent : List Char) : Except Overlong Json :=
  (afterWhole negative whole (fraction ++ exponent)).1

theorem noDigitHead_power {exponent rest : List Char} (power : Power exponent)
    (ends : NumberEnds rest) :
    NoDigitHead (exponent ++ rest) ∧ ∀ c ∈ (exponent ++ rest).head?, c ≠ '.' := by
  cases power with
  | absent => exact ⟨ends.noDigitHead, fun c head => (ends c head).2.1⟩
  | marked letter =>
      rcases letter with rfl | rfl <;> constructor <;>
      · rintro c ⟨⟩
        decide

theorem fractionDigits_eq {fraction rest : List Char} (point : Fraction fraction)
    (stop : NoDigitHead rest) (noPoint : ∀ c ∈ rest.head?, c ≠ '.') :
    fractionDigits (fraction ++ rest) = (fraction.drop 1, rest) := by
  cases point with
  | absent => exact fractionDigits_of_ne noPoint
  | digits nonempty all => exact fractionDigits_append nonempty all stop

theorem fractionDigits_power {fraction exponent rest : List Char} (point : Fraction fraction)
    (power : Power exponent) (ends : NumberEnds rest) :
    fractionDigits (fraction ++ (exponent ++ rest)) = (fraction.drop 1, exponent ++ rest) :=
  fractionDigits_eq point (noDigitHead_power power ends).1 (noDigitHead_power power ends).2

/-- A reading of a fraction and an exponent that gives a value gives it for every text
with this fraction and this exponent. -/
theorem afterWhole_eq_of {negative : Bool} {whole cs other ds mid rest : List Char}
    {e : Option Int} (cut : fractionDigits cs = (ds, mid))
    (power : exponentPart? mid = e.map fun e => (e, rest)) (done : e = none → mid = rest)
    {mid' r : List Char} (cut' : fractionDigits other = (ds, mid'))
    (power' : exponentPart? mid' = e.map fun e => (e, r)) :
    afterWhole negative whole cs = ((afterWhole negative whole other).1, rest) := by
  unfold afterWhole
  rw [cut, cut']
  dsimp only
  rw [power, power']
  cases e with
  | none =>
      rw [done rfl]
      simp only [Option.map_none]
      split <;> rfl
  | some e => rfl

theorem afterWhole_append (negative : Bool) (whole : List Char) {fraction exponent rest : List Char}
    (point : Fraction fraction) (power : Power exponent) (ends : NumberEnds rest) :
    afterWhole negative whole (fraction ++ (exponent ++ rest)) =
      (numberOf negative whole fraction exponent, rest) := by
  have cut := fractionDigits_power point power ends
  have alone := fractionDigits_power point power numberEnds_nil
  rw [List.append_nil] at alone
  by_cases absent : exponent = []
  · subst absent
    exact afterWhole_eq_of (e := none) cut (exponentPart?_of_ne fun c head => (ends c head).2.2)
      (fun _ => rfl) alone (r := []) rfl
  · obtain ⟨e, scanned⟩ := power.exponentPart?_append absent
    have nothing := scanned [] numberEnds_nil.noDigitHead
    rw [List.append_nil] at nothing
    exact afterWhole_eq_of (e := some e) cut (scanned rest ends.noDigitHead) (by simp) alone
      (r := []) nothing

/-- What follows the integer part is a fraction and an exponent, and a rest on which the
value does not depend. -/
theorem afterWhole_eq (negative : Bool) (whole cs : List Char) :
    ∃ fraction exponent rest, Fraction fraction ∧ Power exponent ∧
      cs = fraction ++ (exponent ++ rest) ∧
        afterWhole negative whole cs = (numberOf negative whole fraction exponent, rest) := by
  obtain ⟨fraction, mid, point, text, cut⟩ := fraction_fractionDigits cs
  cases read : exponentPart? mid with
  | none =>
      have alone := fractionDigits_power point .absent numberEnds_nil
      exact ⟨fraction, [], mid, point, .absent, text,
        afterWhole_eq_of (e := none) cut read (fun _ => rfl) alone (r := []) rfl⟩
  | some found =>
      obtain ⟨e, rest⟩ := found
      obtain ⟨exponent, power, present, rfl, stop⟩ := power_of_exponentPart? read
      have alone := fractionDigits_power point power numberEnds_nil
      obtain ⟨e', scanned⟩ := power.exponentPart?_append present
      have same : e' = e := by
        have := (scanned rest stop).symm.trans read
        simpa using this
      have nothing := scanned [] numberEnds_nil.noDigitHead
      rw [List.append_nil] at nothing alone
      subst same
      exact ⟨fraction, exponent, rest, point, power, text,
        afterWhole_eq_of (e := some e') cut read (by simp) alone (r := []) nothing⟩

end Numbers

section Scalars

open Binary64.textWith (sign)

inductive SpellsScalar : Json → List Char → Prop
  | literal {word : List Char} {v : Json} (listed : (word, v) ∈ literals) : SpellsScalar v word
  | number (negative : Bool) {whole fraction exponent : List Char} {v : Json}
      (numeral : Whole whole) (point : Fraction fraction) (power : Power exponent)
      (value : numberOf negative whole fraction exponent = .ok v) :
      SpellsScalar v (sign negative ++ (whole ++ (fraction ++ exponent)))

theorem exists_whole_of_scanNumber? {cs : List Char} {found : Except Overlong Json × List Char}
    (read : scanNumber? cs = some found) :
    ∃ negative whole after, Whole whole ∧ cs = sign negative ++ (whole ++ after) ∧
      (1 < whole.length → NoDigitHead after) ∧ afterWhole negative whole after = found := by
  have signed : ∃ negative unsigned, cs = sign negative ++ unsigned ∧
      ∀ c ∈ unsigned.head?, c ≠ '-' := by
    by_cases minus : cs.head? = some '-'
    · obtain ⟨more, rfl⟩ := List.head?_eq_some_iff.mp minus
      refine ⟨true, more, rfl, ?_⟩
      rintro c head rfl
      obtain ⟨others, rfl⟩ := List.head?_eq_some_iff.mp head
      cases read
    · exact ⟨false, cs, rfl, fun c head same => minus (same ▸ head)⟩
  obtain ⟨negative, unsigned, rfl, plain⟩ := signed
  rw [scanNumber?_signed plain, Option.map_eq_some_iff] at read
  obtain ⟨⟨whole, after⟩, digits, parts⟩ := read
  obtain ⟨numeral, rfl, stop⟩ := whole_of_wholeDigits? digits
  exact ⟨negative, whole, after, numeral, rfl, stop, parts⟩

theorem spells_of_scanNumber? {cs rest : List Char} {v : Json}
    (found : scanNumber? cs = some (.ok v, rest)) :
    ∃ front, cs = front ++ rest ∧ SpellsScalar v front := by
  obtain ⟨negative, whole, after, numeral, rfl, -, read⟩ := exists_whole_of_scanNumber? found
  obtain ⟨fraction, exponent, last, point, power, rfl, parts⟩ := afterWhole_eq negative whole after
  rw [parts, Prod.mk.injEq] at read
  obtain ⟨value, rfl⟩ := read
  exact ⟨_, by simp only [List.append_assoc], .number negative numeral point power value⟩

theorem scanned_eq_ok_iff {found : Except Overlong Json × List Char} {v : Json} {rest : List Char} :
    scanned found = .ok (v, rest) ↔ found = (.ok v, rest) := by
  obtain ⟨_ | _, _⟩ := found <;> simp [scanned]

theorem spells_of_scanScalar {cs rest : List Char} {v : Json}
    (read : scanScalar cs = .ok (v, rest)) : ∃ front, cs = front ++ rest ∧ SpellsScalar v front := by
  unfold scanScalar at read
  split at read
  · next found hit =>
      cases read
      obtain ⟨⟨word, value⟩, listed, begins⟩ := List.exists_of_findSome?_eq_some hit
      rw [Option.map_eq_some_iff] at begins
      obtain ⟨after, head, same⟩ := begins
      cases same
      exact ⟨word, (List.append_eq_of_isPrefixOf?_eq_some head).symm, .literal listed⟩
  · split at read
    · next found number =>
      rw [scanned_eq_ok_iff.mp read] at number
      exact spells_of_scanNumber? number
    · cases read

theorem SpellsScalar.scanScalar_append {v : Json} {front rest : List Char}
    (spelled : SpellsScalar v front) (ends : NumberEnds rest) :
    scanScalar (front ++ rest) = .ok (v, rest) := by
  cases spelled with
  | literal listed =>
      simp only [literals, List.mem_cons, Prod.mk.injEq, List.not_mem_nil, or_false] at listed
      rcases listed with ⟨rfl, rfl⟩ | ⟨rfl, rfl⟩ | ⟨rfl, rfl⟩ | ⟨rfl, rfl⟩ | ⟨rfl, rfl⟩ | ⟨rfl, rfl⟩ <;>
        rfl
  | @number negative whole fraction exponent _ numeral point power value =>
      have stop : NoDigitHead (fraction ++ (exponent ++ rest)) := by
        cases point with
        | absent => exact (noDigitHead_power power ends).1
        | digits nonempty all =>
            rintro c ⟨⟩
            rfl
      have number := scanNumber?_whole negative numeral stop
      rw [afterWhole_append negative whole point power ends, value] at number
      obtain ⟨d, ds, written, digit⟩ := head_whole numeral
      simp only [written, List.append_assoc, List.cons_append] at number ⊢
      exact scanScalar_of_digit negative digit number

/-- The characters of numbers and of the words for scalars, without the digits. -/
def scalarMarks : List Char := "+-.EINaefilnrstuy".toList

theorem SpellsScalar.forall_mem {P : Char → Prop} {v : Json} {cs : List Char}
    (spelled : SpellsScalar v cs) (digit : ∀ c : Char, c.isDigit = true → P c)
    (mark : ∀ c ∈ scalarMarks, P c) : ∀ c ∈ cs, P c := by
  have append : ∀ {front back : List Char}, (∀ c ∈ front, P c) → (∀ c ∈ back, P c) →
      ∀ c ∈ front ++ back, P c :=
    fun front back => List.forall_mem_append.mpr ⟨front, back⟩
  have marks : ∀ {word : List Char}, word ⊆ scalarMarks → ∀ c ∈ word, P c :=
    fun listed c member => mark c (listed member)
  have digits : ∀ {ds : List Char}, ds.all Char.isDigit = true → ∀ c ∈ ds, P c :=
    fun all c member => digit c (List.all_eq_true.mp all c member)
  cases spelled with
  | literal listed =>
      simp only [literals, List.mem_cons, Prod.mk.injEq, List.not_mem_nil, or_false] at listed
      rcases listed with ⟨rfl, -⟩ | ⟨rfl, -⟩ | ⟨rfl, -⟩ | ⟨rfl, -⟩ | ⟨rfl, -⟩ | ⟨rfl, -⟩ <;>
        exact marks (by decide)
  | number negative numeral point power _ =>
      refine append ?_ (append ?_ (append ?_ ?_))
      · cases negative <;> exact marks (by decide)
      · exact digits (all_whole numeral)
      · cases point with
        | absent => exact List.forall_mem_nil _
        | digits nonempty all =>
            exact List.forall_mem_cons.mpr ⟨mark _ (by decide), digits all⟩
      · cases power with
        | absent => exact List.forall_mem_nil _
        | marked letter signed nonempty all =>
            refine List.forall_mem_cons.mpr ⟨?_, append ?_ (digits all)⟩
            · rcases letter with rfl | rfl <;> exact mark _ (by decide)
            · rcases signed with rfl | rfl | rfl <;> exact marks (by decide)

end Scalars

end PromptCanvas.Json
