import PromptCanvas.Proofs.Outline.RoundTrip

/-! # Rendering what was rendered

A list that was read from its own rendering is rendered alike ever after
(`render_read_render_read`).  The first rendering of a list is such a one exactly if no blank
entry is counted in a number that is shown (`render_read_render_iff`): blank entries are counted
and not shown, so that reading loses them.  `Seamless` lists show nothing after a blank entry
before one of a lower level, where the counting starts again; `Behind` compares the counters of
all entries with those of the shown ones.  Of items that fill a line each nothing is lost but the
blanks around their texts (`drafts_formatted`). -/

set_option autoImplicit false

namespace PromptCanvas.Outline

section Counting

variable {c d : Counters} {level : Level} {m : Nat}

namespace Counters

def countAt (c : Counters) : Level → Nat
  | .one => c.first
  | .two => c.second
  | .three => c.third

theorem countAt_advance (c : Counters) (level j : Level) :
    (c.advance level).countAt j =
      if j.toNat < level.toNat then c.countAt j else if j = level then c.countAt j + 1 else 0 := by
  cases level <;> cases j <;> rfl

theorem ext_countAt (same : ∀ j, c.countAt j = d.countAt j) : c = d := by
  cases c
  cases d
  rw [Counters.mk.injEq]
  exact ⟨same .one, same .two, same .three⟩

theorem token_eq_iff : c.token level = d.token level ↔
    ∀ j : Level, j.toNat ≤ level.toNat → c.countAt j = d.countAt j := by
  constructor
  · intro same j below
    cases level <;> cases j <;> simp_all [token, countAt, Level.toNat]
  · intro same
    have one := same .one
    have two := same .two
    have three := same .three
    cases level <;> simp_all [token, countAt, Level.toNat]

end Counters

/-- The counters agree below a level, and there the second ones are behind. -/
structure Behind (m : Nat) (c d : Counters) : Prop where
  positive : 0 < m
  agree : ∀ j : Level, j.toNat < m → c.countAt j = d.countAt j
  less : ∀ j : Level, j.toNat = m → d.countAt j < c.countAt j

theorem toNat_inj {i j : Level} (same : i.toNat = j.toNat) : i = j := by
  rw [← ofInt_toNat i, same, ofInt_toNat]

theorem toNat_bounds (level : Level) : 0 < level.toNat ∧ level.toNat < 4 := by
  cases level <;> decide

theorem exists_level (positive : 0 < m) (bound : m < 4) : ∃ j : Level, j.toNat = m := by
  obtain rfl | rfl | rfl : m = 1 ∨ m = 2 ∨ m = 3 := by omega
  · exact ⟨.one, rfl⟩
  · exact ⟨.two, rfl⟩
  · exact ⟨.three, rfl⟩

theorem behind_self (c : Counters) : Behind 4 c c where
  positive := by decide
  agree := fun _ _ => rfl
  less := fun j here => absurd here (toNat_bounds j).2.ne

/-- An entry that is counted but not shown. -/
theorem Behind.hide (behind : Behind m c d) (level : Level) :
    Behind (min m level.toNat) (c.advance level) d := by
  constructor
  case positive => exact Nat.lt_min.mpr ⟨behind.positive, (toNat_bounds level).1⟩
  case agree =>
    intro j below
    rw [Counters.countAt_advance, if_pos (by omega)]
    exact behind.agree j (by omega)
  case less =>
    intro j here
    rw [Counters.countAt_advance]
    by_cases lower : j.toNat < level.toNat
    · rw [if_pos lower]
      exact behind.less j (by omega)
    · have same : j = level := toNat_inj (by omega)
      rw [if_neg lower, if_pos same]
      rcases Nat.lt_or_ge j.toNat m with below | above
      · rw [behind.agree j below]
        exact Nat.lt_succ_self _
      · exact (behind.less j (by omega)).trans (Nat.lt_succ_self _)

/-- An entry that is shown, of a level up to which the counters agree. -/
theorem Behind.advance_eq (behind : Behind m c d) (below : level.toNat < m) :
    c.advance level = d.advance level := by
  refine Counters.ext_countAt fun j => ?_
  rw [Counters.countAt_advance, Counters.countAt_advance]
  split_ifs with lower same
  · exact behind.agree j (by omega)
  · rw [same, behind.agree level below]
  · rfl

theorem Behind.token_ne (behind : Behind m c d) (above : m ≤ level.toNat) :
    (c.advance level).token level ≠ (d.advance level).token level := by
  obtain ⟨j, here⟩ := exists_level behind.positive (above.trans_lt (toNat_bounds level).2)
  have less := behind.less j here
  intro same
  have equal := Counters.token_eq_iff.mp same j (here ▸ above)
  rw [Counters.countAt_advance, Counters.countAt_advance] at equal
  by_cases lower : j.toNat < level.toNat
  · rw [if_pos lower, if_pos lower] at equal
    exact less.ne' equal
  · have itself : j = level := toNat_inj (by omega)
    rw [if_neg lower, if_neg lower, if_pos itself, if_pos itself] at equal
    omega

end Counting

section Seams

/-- The entries before the first one of a lower level. -/
def reach (level : Nat) (es : List Entry) : List Entry :=
  es.takeWhile fun e => level ≤ e.level.toNat

def shows (e : Entry) : Bool := !Text.isBlankString e.text

/-- Nothing is shown after a blank entry before one of a lower level. -/
def Seamless : List Entry → Prop
  | [] => True
  | e :: es => (shows e = false → ∀ o ∈ reach e.level.toNat es, shows o = false) ∧ Seamless es

instance decidableSeamless : DecidablePred Seamless
  | [] => isTrue trivial
  | e :: es =>
      have := decidableSeamless es
      inferInstanceAs (Decidable
        ((shows e = false → ∀ o ∈ reach e.level.toNat es, shows o = false) ∧ Seamless es))

theorem reach_cons_of_le {m : Nat} {e : Entry} (within : m ≤ e.level.toNat) (es : List Entry) :
    reach m (e :: es) = e :: reach m es :=
  List.takeWhile_cons_of_pos (decide_eq_true within)

theorem reach_cons_of_lt {m : Nat} {e : Entry} (lower : e.level.toNat < m) (es : List Entry) :
    reach m (e :: es) = [] :=
  List.takeWhile_cons_of_neg (by simpa using lower)

theorem reach_four (es : List Entry) : reach 4 es = [] := by
  cases es with
  | nil => rfl
  | cons e es => exact reach_cons_of_lt (toNat_bounds e.level).2 es

theorem reach_subset {m n : Nat} (le : m ≤ n) (es : List Entry) : reach n es ⊆ reach m es := by
  induction es with
  | nil => exact List.Subset.refl _
  | cons e es ih =>
      rcases Nat.lt_or_ge e.level.toNat n with lower | within
      · rw [reach_cons_of_lt lower]
        exact List.nil_subset _
      · rw [reach_cons_of_le within, reach_cons_of_le (le.trans within)]
        exact List.cons_subset_cons e ih

/-- Where a blank entry is counted, its own reach counts only if it goes further. -/
theorem hidden_reach {m : Nat} {e : Entry} (hidden : shows e = false) (es : List Entry) :
    (∀ o ∈ reach (min m e.level.toNat) es, shows o = false) ↔
      (∀ o ∈ reach m (e :: es), shows o = false) ∧
        ∀ o ∈ reach e.level.toNat es, shows o = false := by
  rcases Nat.lt_or_ge e.level.toNat m with lower | within
  · rw [reach_cons_of_lt lower, Nat.min_eq_right lower.le]
    simp
  · rw [reach_cons_of_le within, Nat.min_eq_left within, List.forall_mem_cons]
    constructor
    · intro blank
      exact ⟨⟨hidden, blank⟩, fun o inside => blank o (reach_subset within es inside)⟩
    · exact fun blank => blank.1.2

/-- The numbers that are shown are those of the shown entries by themselves exactly if no blank
entry is counted in them. -/
theorem tokens_eq_iff (es : List Entry) : ∀ {m : Nat} {c d : Counters}, Behind m c d →
    (((numberFrom c es).filter fun n => shows n.2).map Prod.fst =
        (numberFrom d (es.filter shows)).map Prod.fst ↔
      (∀ o ∈ reach m es, shows o = false) ∧ Seamless es) := by
  -- `m` is the lowest level at which a blank entry is counted, and 4 if there is none
  induction es with
  | nil => intro m c d _; simp [numberFrom, reach, Seamless]
  | cons e es ih =>
      intro m c d behind
      cases shown : shows e with
      | false =>
          have hidden : ¬ shows e = true := Bool.not_eq_true _ ▸ shown
          rw [numberFrom, List.filter_cons_of_neg (by exact hidden),
            List.filter_cons_of_neg hidden, ih (behind.hide e.level), hidden_reach shown, Seamless,
            and_assoc, forall_prop_of_true shown]
      | true =>
          rw [numberFrom, List.filter_cons_of_pos (by exact shown), List.filter_cons_of_pos shown,
            numberFrom, List.map_cons, List.map_cons, List.cons.injEq, Seamless]
          rcases Nat.lt_or_ge e.level.toNat m with lower | within
          · rw [behind.advance_eq lower, ih (behind_self _), reach_four, reach_cons_of_lt lower]
            simp [shown]
          · refine iff_of_false (fun same => behind.token_ne within same.1) fun blank => ?_
            rw [reach_cons_of_le within] at blank
            exact absurd (blank.1 e (List.mem_cons_self ..)) (by simp [shown])

end Seams

section Lines

variable {ns others : List (List Nat × Entry)}

theorem splitOn_tokenText {token : List Nat} (parts : token ≠ []) :
    ((tokenText token).splitOn '.').map Numeral.natOf = token := by
  have undotted : ∀ digits ∈ token.map (Nat.toDigits 10), '.' ∉ digits := by
    intro digits member
    obtain ⟨n, -, rfl⟩ := List.mem_map.mp member
    exact List.count_eq_zero.mp (count_toDigits n)
  rw [tokenText, List.splitOn_intercalate '.' undotted (by simpa using parts), List.map_map]
  exact (List.map_congr_left fun n _ => Numeral.natOf_toDigits n).trans (List.map_id' _)

theorem map_lineText_eq_iff (numbered : ∀ n ∈ ns, Numbered n)
    (numbered' : ∀ n ∈ others, Numbered n) (entries : ns.map Prod.snd = others.map Prod.snd) :
    ns.map lineText = others.map lineText ↔ ns.map Prod.fst = others.map Prod.fst := by
  have back : ∀ {ms : List (List Nat × Entry)}, (∀ n ∈ ms, Numbered n) →
      (ms.map lineText).map (fun line => ((spanNumber false line).1.splitOn '.').map Numeral.natOf) =
        ms.map Prod.fst := by
    intro ms numbered
    rw [List.map_map]
    refine List.map_congr_left fun n member => ?_
    have parts := (numbered n member).parts
    rw [Function.comp_apply, lineText, spanNumber_tokenText parts, splitOn_tokenText parts]
  constructor
  · intro lines
    rw [← back numbered, lines, back numbered']
  · intro tokens
    have same : ns = others :=
      (List.zip_of_prod tokens entries).trans (List.zip_of_prod rfl rfl).symm
    rw [same]

theorem tidy_tidy (e : Entry) : e.tidy.tidy = e.tidy := by
  simp only [Entry.tidy, Text.trimmed, String.toList_ofList, Text.trim_trim]

theorem Numbered.tidy {n : List Nat × Entry} (numbered : Numbered n) :
    Numbered (n.1, n.2.tidy) := by
  rw [Numbered] at numbered ⊢
  exact numbered

theorem lineText_tidy (n : List Nat × Entry) : lineText (n.1, n.2.tidy) = lineText n := by
  rw [lineText, lineText, Entry.tidy, Text.trimmed, String.toList_ofList, Text.trim_trim]

theorem numberFrom_map_tidy (es : List Entry) : ∀ c : Counters,
    numberFrom c (es.map Entry.tidy) = (numberFrom c es).map fun n => (n.1, n.2.tidy) := by
  induction es with
  | nil => intro c; rfl
  | cons e es ih =>
      intro c
      rw [List.map_cons, numberFrom, ih, numberFrom]
      rfl

theorem map_lineText_numberFrom_tidy (c : Counters) (es : List Entry) :
    (numberFrom c (es.map Entry.tidy)).map lineText = (numberFrom c es).map lineText := by
  rw [numberFrom_map_tidy, List.map_map]
  exact List.map_congr_left fun n _ => lineText_tidy n

/-- The entries that are shown, with the numbers that they have among all. -/
def shownFrom (c : Counters) (es : List Entry) : List (List Nat × Entry) :=
  (numberFrom c es).filter fun n => shows n.2

theorem map_snd_shownFrom (c : Counters) (es : List Entry) :
    (shownFrom c es).map Prod.snd = es.filter shows := by
  conv_rhs => rw [← map_snd_numberFrom es c]
  rw [List.filter_map]
  rfl

theorem numbered_shownFrom (c : Counters) (es : List Entry) : ∀ n ∈ shownFrom c es, Numbered n :=
  fun n member => numbered_numberFrom es c n (List.mem_filter.mp member).1

theorem render_eq (es : List Entry) :
    render es = String.ofList (List.intercalate ['\n'] ((shownFrom .start es).map lineText)) := rfl

end Lines

section Rereading

theorem trimmedLines_of_blank {text : String} (blank : Text.trimmed text = "") :
    trimmedLines text.toList = [] := by
  have gaps := List.all_eq_true.mp ((Text.isBlankString_iff text).mpr blank)
  rw [List.eq_nil_iff_forall_not_mem]
  intro line member
  obtain ⟨-, trimmed, some⟩ := mem_trimmedLines member
  obtain ⟨c, inside, visible⟩ := Text.exists_visible (trimmed.symm ▸ some)
  rw [trimmed] at inside
  have gap := gaps c (subset_of_mem_trimmedLines member inside)
  rw [visible] at gap
  exact Bool.false_ne_true gap

theorem read_of_blank {text : String} (blank : Text.trimmed text = "") :
    read text = [Entry.blank] := by
  rw [read, trimmedLines_of_blank blank]
  rfl

theorem render_blank : render [Entry.blank] = "" := rfl

theorem render_read_empty : render (read "") = "" := by
  have blank : Text.trimmed "" = "" := (Text.isBlankString_iff "").mp rfl
  rw [read_of_blank blank, render_blank]

theorem render_read_render_read (text : String) :
    render (read (render (read text))) = render (read text) := by
  by_cases blank : Text.trimmed text = ""
  · rw [read_of_blank blank, render_blank, render_read_empty]
  · rw [read_render_read blank]

theorem intercalate_inj {ls others : List (List Char)} (some : ls ≠ []) (some' : others ≠ [])
    (unbroken : ∀ l ∈ ls, '\n' ∉ l) (unbroken' : ∀ l ∈ others, '\n' ∉ l) :
    List.intercalate ['\n'] ls = List.intercalate ['\n'] others ↔ ls = others := by
  constructor
  · intro same
    rw [← Text.lines_intercalate some unbroken, same, Text.lines_intercalate some' unbroken']
  · exact congrArg _

section Shown

variable {es : List Entry} (unbroken : ∀ e ∈ es, '\n' ∉ Text.trim e.text.toList)

include unbroken

theorem clean_tidy {e : Entry} (member : e ∈ es.filter shows) : e.tidy.Clean := by
  obtain ⟨listed, shown⟩ := List.mem_filter.mp member
  have text : e.tidy.text.toList = Text.trim e.text.toList := String.toList_ofList
  constructor
  · rw [text]
    exact unbroken e listed
  · rw [text, Text.trim_trim, ne_eq, ← Text.isBlankText_iff]
    simpa [shows, Text.isBlankString] using shown

theorem clean_shownFrom {n : List Nat × Entry} (member : n ∈ shownFrom .start es) :
    n.2.tidy.Clean := by
  have shown := List.mem_map_of_mem (f := Prod.snd) member
  rw [map_snd_shownFrom] at shown
  exact clean_tidy unbroken shown

theorem unbroken_shownFrom : ∀ l ∈ (shownFrom .start es).map lineText, '\n' ∉ l := by
  intro l member
  obtain ⟨n, shown, rfl⟩ := List.mem_map.mp member
  have clean := clean_shownFrom unbroken shown
  rw [← lineText_tidy]
  exact unbroken_lineText (n := (n.1, n.2.tidy)) clean

theorem read_render_shown (some : shownFrom .start es ≠ []) :
    read (render es) = (es.filter shows).map Entry.tidy := by
  have tidied : (shownFrom .start es).map lineText =
      ((shownFrom .start es).map fun n => (n.1, n.2.tidy)).map lineText := by
    rw [List.map_map]
    exact (List.map_congr_left fun n _ => lineText_tidy n).symm
  rw [render_eq, tidied, read_joined, List.map_map, ← map_snd_shownFrom .start, List.map_map]
  · exact List.map_congr_left fun n _ => tidy_tidy n.2
  · simpa using some
  · intro n member
    obtain ⟨m, shown, rfl⟩ := List.mem_map.mp member
    exact (numbered_shownFrom .start es m shown).tidy
  · intro n member
    obtain ⟨m, shown, rfl⟩ := List.mem_map.mp member
    exact clean_shownFrom unbroken shown

/-- The rendering of a list is read back without a change in its numbers exactly if no blank
entry is counted in them. -/
theorem render_read_render_iff : render (read (render es)) = render es ↔ Seamless es := by
  have tokens := tokens_eq_iff es (behind_self .start)
  rw [reach_four] at tokens
  simp only [List.not_mem_nil, false_imp_iff, implies_true, true_and] at tokens
  rw [← tokens, ← shownFrom]
  have entries := map_snd_shownFrom .start es
  by_cases none : shownFrom .start es = []
  · rw [none, List.map_nil] at entries
    refine iff_of_true ?_ (by rw [none, ← entries]; rfl)
    have empty : render es = "" := by
      rw [render_eq, none]
      rfl
    rw [empty]
    exact render_read_empty
  · have some : es.filter shows ≠ [] := by
      rw [← entries, ne_eq, List.map_eq_nil_iff]
      exact none
    have clean : ∀ e ∈ (es.filter shows).map Entry.tidy, e.Clean := by
      intro e member
      obtain ⟨o, shown, rfl⟩ := List.mem_map.mp member
      exact clean_tidy unbroken shown
    have numbered := numbered_numberFrom (es.filter shows) .start
    rw [read_render_shown unbroken none, render, shownLines_of_clean clean,
      map_lineText_numberFrom_tidy, render_eq, String.ofList_inj, eq_comm, intercalate_inj,
      map_lineText_eq_iff (numbered_shownFrom .start es) numbered]
    · rw [entries, map_snd_numberFrom]
    · simpa using none
    · simpa using numberFrom_ne_nil .start some
    · exact unbroken_shownFrom unbroken
    · rw [← map_lineText_numberFrom_tidy]
      intro l member
      obtain ⟨n, place, rfl⟩ := List.mem_map.mp member
      exact unbroken_lineText (clean n.2 (mem_of_mem_numberFrom place))

end Shown

end Rereading

section Items

/-- The rendered list of items, or of the fallback text if there are none. -/
def formatted (items : List Json) (fallback : String) : String :=
  render ((drafts items fallback).map Draft.toEntry)

theorem formatted_nil (text : String) : formatted [] text = render (read text) := by
  rw [formatted, drafts, List.map_map]
  exact congrArg render (List.map_id' _)

/-- Read back, rendered items are rendered alike from then on; and from the start on, where texts
fill one line each, exactly if no blank item is counted in the number of one that is shown. -/
theorem formatted_again (items : List Json) :
    formatted [] (formatted [] (formatted items "")) = formatted [] (formatted items "") ∧
      ((∀ d ∈ drafts items "", '\n' ∉ Text.trim d.text.toList) →
        (formatted [] (formatted items "") = formatted items "" ↔
          Seamless ((drafts items "").map Draft.toEntry))) := by
  constructor
  · rw [formatted_nil, formatted_nil, render_read_render_read]
  · intro unbroken
    rw [formatted_nil]
    exact render_read_render_iff (List.forall_mem_map.mpr unbroken)

def itemOf (text : String) (level : Nat) : Json :=
  .object [("text", .string text), ("level", .nat level)]

def gapped : List Json := [itemOf "x" 1, itemOf " " 2, itemOf "y" 1]

theorem formatted_again_gapped : formatted [] (formatted gapped "") = formatted gapped "" := by
  refine ((formatted_again gapped).2 ?_).mpr ?_
  · decide +kernel
  · decide +kernel

def led : List Json := [itemOf "" 1, itemOf "x" 1]

def broken : List Json := [itemOf "a\nb" 1]

/-- Reading loses the number of a blank item at the head of a list, and a text of two lines is
read back as two items. -/
theorem formatted_differs :
    formatted [] (formatted led "") ≠ formatted led "" ∧
      formatted [] (formatted broken "") ≠ formatted broken "" := by
  constructor
  · decide +kernel
  · decide +kernel

theorem drafts_of_ne_nil {items : List Json} (nonempty : items ≠ []) (fallback : String) :
    drafts items fallback = items.map Draft.ofJson := by
  obtain ⟨item, more, rfl⟩ := List.exists_cons_of_ne_nil nonempty
  rfl

/-- Items whose texts fill one line each are read back from their rendering one by one, with
trimmed texts and with their levels. -/
theorem drafts_formatted {items : List Json} (nonempty : items ≠ [])
    (clean : ∀ item ∈ items, (Draft.ofJson item).toEntry.Clean) :
    drafts [] (formatted items "") =
      items.map fun item =>
        { text := Text.trimmed (Draft.ofJson item).text
          level := (Draft.ofJson item).level
          id := none } := by
  have entries : (drafts items "").map Draft.toEntry =
      items.map fun item => (Draft.ofJson item).toEntry := by
    rw [drafts_of_ne_nil nonempty, List.map_map]
    rfl
  have some : (items.map fun item => (Draft.ofJson item).toEntry) ≠ [] := by
    rwa [ne_eq, List.map_eq_nil_iff]
  rw [formatted, entries, drafts, read_render some (List.forall_mem_map.mpr clean), List.map_map,
    List.map_map]
  rfl

def numeric : List Json := [itemOf "1.2 x" 7, .string " 3. ", .object [("text", .int 12)]]

theorem drafts_formatted_numeric :
    numeric ≠ [] ∧ (∀ item ∈ numeric, (Draft.ofJson item).toEntry.Clean) ∧
      drafts [] (formatted numeric "") =
        [⟨⟨"1.2 x", .three⟩, none⟩, ⟨⟨"3.", .one⟩, none⟩, ⟨⟨"12", .one⟩, none⟩] := by
  have nonempty : numeric ≠ [] := List.cons_ne_nil _ _
  have clean : ∀ item ∈ numeric, (Draft.ofJson item).toEntry.Clean := by
    simp only [numeric, List.forall_mem_cons]
    exact ⟨⟨by decide +kernel, by decide +kernel⟩, ⟨by decide +kernel, by decide +kernel⟩,
      ⟨by decide +kernel, by decide +kernel⟩, List.forall_mem_nil _⟩
  refine ⟨nonempty, clean, (drafts_formatted nonempty clean).trans ?_⟩
  decide +kernel

end Items

end PromptCanvas.Outline
