import PromptCanvas.Proofs.Json.Numbers
import PromptCanvas.Proofs.Json.Strings

/-! # Reading what was written

A value whose objects repeat no key and whose integers are not too long is read back
from its text in every style, strictly or not (`read_render`, `load_render`): the same
value, each binary64 number as its own text is read (`Json.reread`). -/

set_option autoImplicit false

namespace PromptCanvas.Json

section Values

mutual

def reread : Json → Json
  | .float x => .float x.reread
  | .array items => .array (rereadItems items)
  | .object fields => .object (rereadFields fields)
  | j => j

def rereadItems : List Json → List Json
  | [] => []
  | item :: items => reread item :: rereadItems items

def rereadFields : List (String × Json) → List (String × Json)
  | [] => []
  | (key, value) :: fields => (key, reread value) :: rereadFields fields

end

mutual

/-- No object in the value has two fields with one key, and no integer has too many digits. -/
def Rereadable : Json → Prop
  | .int n => (Nat.toDigits 10 n.natAbs).length ≤ digitLimit
  | .array items => ItemsRereadable items
  | .object fields => (fields.map Prod.fst).Nodup ∧ FieldsRereadable fields
  | _ => True

def ItemsRereadable : List Json → Prop
  | [] => True
  | item :: items => Rereadable item ∧ ItemsRereadable items

def FieldsRereadable : List (String × Json) → Prop
  | [] => True
  | (_, value) :: fields => Rereadable value ∧ FieldsRereadable fields

end

theorem rereadItems_eq_map (items : List Json) : rereadItems items = items.map reread := by
  induction items with
  | nil => rfl
  | cons item items ih => exact congrArg (reread item :: ·) ih

theorem itemsRereadable_iff (items : List Json) :
    ItemsRereadable items ↔ ∀ item ∈ items, Rereadable item := by
  induction items with
  | nil => simp [ItemsRereadable]
  | cons item items ih => rw [ItemsRereadable, ih, List.forall_mem_cons]

variable {α : Type} {write : α → Json}

theorem rereadItems_map (fixed : ∀ a, (write a).reread = write a) (values : List α) :
    rereadItems (values.map write) = values.map write := by
  rw [rereadItems_eq_map, List.map_map]
  exact List.map_congr_left fun a _ => fixed a

theorem itemsRereadable_map (distinct : ∀ a, (write a).Rereadable) (values : List α) :
    ItemsRereadable (values.map write) := by
  rw [itemsRereadable_iff, List.forall_mem_map]
  exact fun a _ => distinct a

theorem map_fst_rereadFields (fields : List (String × Json)) :
    (rereadFields fields).map Prod.fst = fields.map Prod.fst := by
  induction fields with
  | nil => rfl
  | cons field fields ih => exact congrArg (field.1 :: ·) ih

theorem insertField_of_not_mem {key : String} (value : Json) {fields : List (String × Json)}
    (fresh : key ∉ fields.map Prod.fst) :
    insertField key value fields = fields ++ [(key, value)] := by
  induction fields with
  | nil => rfl
  | cons field fields ih =>
      rw [List.map_cons, List.mem_cons, not_or] at fresh
      rw [insertField, if_neg fun same => fresh.1 same.symm, ih fresh.2]
      rfl

theorem ofFields_of_nodup {fields : List (String × Json)}
    (distinct : (fields.map Prod.fst).Nodup) : ofFields fields = .object fields := by
  have step : ∀ done : List (String × Json), ((done ++ fields).map Prod.fst).Nodup →
      fields.foldl (fun done f => insertField f.1 f.2 done) done = done ++ fields := by
    clear distinct
    induction fields with
    | nil => intro done _; exact (List.append_nil done).symm
    | cons field fields ih =>
        intro done distinct
        have fresh : field.1 ∉ done.map Prod.fst := by
          rw [List.map_append, List.nodup_append] at distinct
          exact fun member => distinct.2.2 field.1 member field.1 (by simp) rfl
        rw [List.foldl_cons, insertField_of_not_mem field.2 fresh, ih, List.append_assoc]
        · rfl
        · rwa [List.append_assoc]
  rw [ofFields, step [] distinct]
  rfl

end Values

section Spaces

def Spaces (cs : List Char) : Prop := ∀ c ∈ cs, isJsonSpace c = true

theorem skipSpace_append {gap : List Char} (spaces : Spaces gap) (cs : List Char) :
    skipSpace (gap ++ cs) = skipSpace cs := by
  induction gap with
  | nil => rfl
  | cons c gap ih =>
      rw [List.cons_append, skipSpace, List.dropWhile_cons_of_pos (spaces c (by simp))]
      exact ih fun d member => spaces d (List.mem_cons_of_mem c member)

theorem skipSpace_cons {c : Char} (solid : isJsonSpace c = false) (cs : List Char) :
    skipSpace (c :: cs) = c :: cs :=
  List.dropWhile_cons_of_neg (by simp [solid])

theorem spaces_lineBreak (style : Style) (depth : Nat) : Spaces (lineBreak style depth) := by
  intro c member
  unfold lineBreak at member
  split at member
  · cases member
  · rcases List.mem_cons.mp member with rfl | inside
    · rfl
    · rw [List.eq_of_mem_replicate inside]
      rfl

theorem separator_eq (style : Style) (depth : Nat) :
    ∃ gap, Spaces gap ∧ separator style depth = ',' :: gap := by
  unfold separator
  split
  · exact ⟨[' '], by simp [Spaces, isJsonSpace], rfl⟩
  · exact ⟨_, spaces_lineBreak style depth, rfl⟩

theorem numberEnds_closing (style : Style) (depth : Nat) {mark : Char}
    (closes : mark = ']' ∨ mark = '\x7d') (rest : List Char) :
    NumberEnds (lineBreak style depth ++ mark :: rest) := by
  unfold lineBreak
  split
  · rcases closes with rfl | rfl <;>
    · rintro c ⟨⟩
      decide
  · rintro c ⟨⟩
    decide

theorem numberEnds_separator (style : Style) (depth : Nat) (cs : List Char) :
    NumberEnds (separator style depth ++ cs) := by
  obtain ⟨gap, -, written⟩ := separator_eq style depth
  rw [written]
  rintro c ⟨⟩
  decide

end Spaces

section Heads

/-- The characters with which a scalar other than a string does not begin. -/
def marks : List Char := ['"', '[', ']', '\x7b', '\x7d', ' ', '\t', '\n', '\r', '\ufeff']

theorem scanScalar_mark {c : Char} (mark : c ∈ marks) (cs : List Char) :
    scanScalar (c :: cs) = .error (.expectingValue, c :: cs) := by
  simp only [marks, List.mem_cons, List.not_mem_nil, or_false] at mark
  rcases mark with rfl | rfl | rfl | rfl | rfl | rfl | rfl | rfl | rfl | rfl <;> rfl

def BeginsValue (cs : List Char) : Prop :=
  ∃ c more, cs = c :: more ∧ isJsonSpace c = false ∧ c ≠ ']' ∧ c ≠ '\x7d' ∧ c ≠ '\ufeff'

theorem BeginsValue.append {cs : List Char} (begins : BeginsValue cs) (rest : List Char) :
    BeginsValue (cs ++ rest) := by
  obtain ⟨c, more, rfl, solid⟩ := begins
  exact ⟨c, more ++ rest, rfl, solid⟩

theorem BeginsValue.skipSpace_eq {cs : List Char} (begins : BeginsValue cs) :
    skipSpace cs = cs := by
  obtain ⟨c, more, rfl, solid, -⟩ := begins
  exact skipSpace_cons solid more

theorem begins_of_scanScalar {cs : List Char}
    (scans : scanScalar cs ≠ .error (.expectingValue, cs)) : ∃ c more, cs = c :: more ∧ c ∉ marks := by
  cases cs with
  | nil => exact absurd rfl scans
  | cons c more => exact ⟨c, more, rfl, fun mark => scans (scanScalar_mark mark more)⟩

theorem beginsValue_of_scanScalar {cs : List Char}
    (scans : scanScalar cs ≠ .error (.expectingValue, cs)) : BeginsValue cs := by
  obtain ⟨c, more, rfl, other⟩ := begins_of_scanScalar scans
  simp only [marks, List.mem_cons, List.not_mem_nil, or_false, not_or] at other
  exact ⟨c, more, rfl, by simp [isJsonSpace, other], other.2.2.1, other.2.2.2.2.1,
    other.2.2.2.2.2.2.2.2.2⟩

theorem scanValue_scalar (strict : Bool) (n : Nat) {cs : List Char}
    (scans : scanScalar cs ≠ .error (.expectingValue, cs)) :
    scanValue strict (n + 1) cs = scanScalar cs := by
  obtain ⟨c, more, rfl, other⟩ := begins_of_scanScalar scans
  simp only [marks, List.mem_cons, List.not_mem_nil, or_false, not_or] at other
  rw [scanValue]
  · exact fun rest same => other.1 (List.cons.inj same).1
  · exact fun rest same => other.2.1 (List.cons.inj same).1
  · exact fun rest same => other.2.2.2.1 (List.cons.inj same).1

theorem scans_of_ok {cs : List Char} {found : Json × List Char}
    (read : scanScalar cs = .ok found) : scanScalar cs ≠ .error (.expectingValue, cs) := by
  rw [read]
  exact nofun

end Heads

section Steps

variable {strict : Bool} {n : Nat} {cs rest after last : List Char}

theorem scanValue_string (asciiOnly : Bool) (s : String) :
    scanValue strict (n + 1) (stringText asciiOnly s ++ rest) = .ok (.string s, rest) := by
  simp only [stringText, List.cons_append, List.append_assoc, List.nil_append, scanValue,
    scanString_escaped]

theorem scanItems_last {item : Json} (first : scanValue strict n cs = .ok (item, rest))
    (close : skipSpace rest = ']' :: after) :
    scanItems strict (n + 1) cs = .ok ([item], after) := by
  simp only [scanItems, first, close]

theorem scanItems_more {item : Json} {items : List Json}
    (first : scanValue strict n cs = .ok (item, rest)) (comma : skipSpace rest = ',' :: after)
    (others : scanItems strict n (skipSpace after) = .ok (items, last)) :
    scanItems strict (n + 1) cs = .ok (item :: items, last) := by
  simp only [scanItems, first, comma, others]

theorem scanValue_array {items : List Json} (begins : BeginsValue (skipSpace cs))
    (inside : scanItems strict n (skipSpace cs) = .ok (items, rest)) :
    scanValue strict (n + 1) ('[' :: cs) = .ok (.array items, rest) := by
  obtain ⟨c, more, text, -, noClose, -⟩ := begins
  rw [text] at inside
  simp only [scanValue, text]
  split
  · rename_i same
    exact absurd (List.cons.inj same).1 noClose
  · rw [inside]

theorem scanMembers_last (asciiOnly : Bool) (key : String) {value : Json}
    (begins : BeginsValue cs) (first : scanValue strict n cs = .ok (value, rest))
    (close : skipSpace rest = '\x7d' :: after) :
    scanMembers strict (n + 1) (stringText asciiOnly key ++ ([':', ' '] ++ cs)) =
      .ok ([(key, value)], after) := by
  have gap : skipSpace (' ' :: cs) = cs := begins.skipSpace_eq
  simp only [stringText, List.cons_append, List.append_assoc, List.nil_append, scanMembers,
    scanString_escaped, skipSpace_cons (c := ':') rfl, gap, first, close]

theorem scanMembers_more (asciiOnly : Bool) (key : String) {value : Json}
    {fields : List (String × Json)} (begins : BeginsValue cs)
    (first : scanValue strict n cs = .ok (value, rest)) (comma : skipSpace rest = ',' :: after)
    (others : scanMembers strict n (skipSpace after) = .ok (fields, last)) :
    scanMembers strict (n + 1) (stringText asciiOnly key ++ ([':', ' '] ++ cs)) =
      .ok ((key, value) :: fields, last) := by
  have gap : skipSpace (' ' :: cs) = cs := begins.skipSpace_eq
  simp only [stringText, List.cons_append, List.append_assoc, List.nil_append, scanMembers,
    scanString_escaped, skipSpace_cons (c := ':') rfl, gap, first, comma, others]

theorem scanValue_object {fields : List (String × Json)} (asciiOnly : Bool) {key : String}
    (gap : skipSpace cs = stringText asciiOnly key ++ rest)
    (inside : scanMembers strict n (skipSpace cs) = .ok (fields, last)) :
    scanValue strict (n + 1) ('\x7b' :: cs) = .ok (.ofFields fields, last) := by
  rw [gap] at inside
  simp only [scanValue, gap]
  simp only [stringText, List.cons_append] at inside ⊢
  split
  · rename_i same
    exact absurd (List.cons.inj same).1 (by decide)
  · rw [inside]

end Steps

section Texts

variable (style : Style)

theorem beginsValue_stringText (asciiOnly : Bool) (s : String) :
    BeginsValue (stringText asciiOnly s) :=
  ⟨'"', _, rfl, rfl, by decide, by decide, by decide⟩

theorem scanScalar_textAt {j : Json} (depth : Nat) {rest : List Char} (ends : NumberEnds rest)
    (readable : Rereadable j)
    (scalar : (∀ s, j ≠ .string s) ∧ (∀ items, j ≠ .array items) ∧
      ∀ fields, j ≠ .object fields) :
    scanScalar (textAt style depth j ++ rest) = .ok (j.reread, rest) := by
  obtain ⟨noString, noArray, noObject⟩ := scalar
  cases j with
  | null => rfl
  | bool b => cases b <;> rfl
  | int n => exact scanScalar_intText n ends readable
  | float x => exact scanScalar_jsonText x ends
  | string s => exact absurd rfl (noString s)
  | array items => exact absurd rfl (noArray items)
  | object fields => exact absurd rfl (noObject fields)

theorem beginsValue_textAt (depth : Nat) (j : Json) : BeginsValue (textAt style depth j) := by
  cases j with
  | null => exact ⟨'n', _, rfl, rfl, by decide, by decide, by decide⟩
  | bool b => cases b <;> exact ⟨_, _, rfl, rfl, by decide, by decide, by decide⟩
  | int n =>
      have begins := beginsValue_of_scanScalar (scans_whole (decide (n < 0))
        (whole_toDigits n.natAbs) numberEnds_nil.integerEnds)
      rwa [List.append_nil, ← intText_eq] at begins
  | float x =>
      have begins := beginsValue_of_scanScalar (scans_of_ok (scanScalar_jsonText x numberEnds_nil))
      rwa [List.append_nil] at begins
  | string s => exact beginsValue_stringText style.asciiOnly s
  | array items => cases items <;> exact ⟨'[', _, rfl, rfl, by decide, by decide, by decide⟩
  | object fields => cases fields <;> exact ⟨'\x7b', _, rfl, rfl, by decide, by decide, by decide⟩

theorem length_textAt_pos (depth : Nat) (j : Json) : 0 < (textAt style depth j).length := by
  obtain ⟨c, more, text, -⟩ := beginsValue_textAt style depth j
  rw [text]
  exact Nat.succ_pos _

theorem numberEnds_items (depth : Nat) {mark : Char} (closes : mark = ']' ∨ mark = '\x7d')
    (items : List Json) (outer : Nat) (rest : List Char) :
    NumberEnds (itemsText style depth items ++ (lineBreak style outer ++ mark :: rest)) := by
  cases items with
  | nil => exact numberEnds_closing style outer closes rest
  | cons item items =>
      rw [itemsText, List.append_assoc, List.append_assoc]
      exact numberEnds_separator style depth _

theorem numberEnds_fields (depth : Nat) {mark : Char} (closes : mark = ']' ∨ mark = '\x7d')
    (fields : List (String × Json)) (outer : Nat) (rest : List Char) :
    NumberEnds (fieldsText style depth fields ++ (lineBreak style outer ++ mark :: rest)) := by
  cases fields with
  | nil => exact numberEnds_closing style outer closes rest
  | cons field fields =>
      simp only [fieldsText, List.append_assoc]
      exact numberEnds_separator style depth _

end Texts

section Reading

variable (style : Style) (strict : Bool)

theorem exists_fuel {n : Nat} (j : Json) (depth : Nat)
    (fuel : 2 * (textAt style depth j).length ≤ n) : ∃ k, n = k + 1 := by
  have long := length_textAt_pos style depth j
  exact Nat.exists_eq_succ_of_ne_zero (by omega)

theorem scanValue_scalarText {j : Json} {depth n : Nat} {rest : List Char}
    (readable : Rereadable j) (ends : NumberEnds rest) (fuel : 2 * (textAt style depth j).length ≤ n)
    (scalar : (∀ s, j ≠ .string s) ∧ (∀ items, j ≠ .array items) ∧
      ∀ fields, j ≠ .object fields) :
    scanValue strict n (textAt style depth j ++ rest) = .ok (reread j, rest) := by
  obtain ⟨n, rfl⟩ := exists_fuel style j depth fuel
  have read := scanScalar_textAt style depth ends readable scalar
  exact (scanValue_scalar strict n (scans_of_ok read)).trans read

theorem scanValue_arrayText {item : Json} {items read : List Json} {depth n : Nat}
    {rest : List Char}
    (inside : scanItems strict n (textAt style (depth + 1) item ++
      (itemsText style (depth + 1) items ++ (lineBreak style depth ++ ']' :: rest))) =
        .ok (read, rest)) :
    scanValue strict (n + 1) (textAt style depth (.array (item :: items)) ++ rest) =
      .ok (.array read, rest) := by
  have begins := (beginsValue_textAt style (depth + 1) item).append
    (itemsText style (depth + 1) items ++ (lineBreak style depth ++ ']' :: rest))
  have gap := (skipSpace_append (spaces_lineBreak style (depth + 1)) _).trans begins.skipSpace_eq
  rw [← gap] at inside begins
  simp only [textAt, List.cons_append, List.append_assoc, List.nil_append]
  exact scanValue_array begins inside

theorem scanValue_objectText {key : String} {value : Json} {fields read : List (String × Json)}
    {depth n : Nat} {rest : List Char} (distinct : (read.map Prod.fst).Nodup)
    (inside : scanMembers strict n (stringText style.asciiOnly key ++ ([':', ' '] ++
      (textAt style (depth + 1) value ++
        (fieldsText style (depth + 1) fields ++ (lineBreak style depth ++ '\x7d' :: rest))))) =
        .ok (read, rest)) :
    scanValue strict (n + 1) (textAt style depth (.object ((key, value) :: fields)) ++ rest) =
      .ok (.object read, rest) := by
  have begins := beginsValue_stringText style.asciiOnly key
  have gap := (skipSpace_append (spaces_lineBreak style (depth + 1)) _).trans
    (begins.append ([':', ' '] ++ (textAt style (depth + 1) value ++
      (fieldsText style (depth + 1) fields ++
        (lineBreak style depth ++ '\x7d' :: rest))))).skipSpace_eq
  rw [← gap] at inside
  rw [← ofFields_of_nodup distinct]
  simp only [textAt, List.cons_append, List.append_assoc, List.nil_append]
  exact scanValue_object style.asciiOnly gap inside

mutual

theorem scanValue_textAt : ∀ (j : Json) (depth n : Nat) (rest : List Char),
    Rereadable j → NumberEnds rest → 2 * (textAt style depth j).length ≤ n →
      scanValue strict n (textAt style depth j ++ rest) = .ok (reread j, rest)
  | .null, _, _, _, readable, ends, fuel =>
      scanValue_scalarText style strict readable ends fuel (by simp)
  | .bool _, _, _, _, readable, ends, fuel =>
      scanValue_scalarText style strict readable ends fuel (by simp)
  | .int _, _, _, _, readable, ends, fuel =>
      scanValue_scalarText style strict readable ends fuel (by simp)
  | .float _, _, _, _, readable, ends, fuel =>
      scanValue_scalarText style strict readable ends fuel (by simp)
  | .string s, depth, n, rest, _, _, fuel => by
      obtain ⟨n, rfl⟩ := exists_fuel style (.string s) depth fuel
      exact scanValue_string style.asciiOnly s
  | .array [], depth, n, rest, _, _, fuel => by
      obtain ⟨n, rfl⟩ := exists_fuel style (.array []) depth fuel
      rfl
  | .array (item :: items), depth, n, rest, readable, _, fuel => by
      obtain ⟨n, rfl⟩ := exists_fuel style (.array (item :: items)) depth fuel
      simp only [textAt, List.length_cons, List.length_append] at fuel
      exact scanValue_arrayText style strict
        (scanItems_itemsText item items (depth + 1) depth n rest readable (by omega))
  | .object [], depth, n, rest, _, _, fuel => by
      obtain ⟨n, rfl⟩ := exists_fuel style (.object []) depth fuel
      rfl
  | .object ((key, value) :: fields), depth, n, rest, readable, _, fuel => by
      obtain ⟨n, rfl⟩ := exists_fuel style (.object ((key, value) :: fields)) depth fuel
      simp only [textAt, List.length_cons, List.length_append] at fuel
      have keys : ((rereadFields ((key, value) :: fields)).map Prod.fst).Nodup := by
        rw [map_fst_rereadFields]
        exact readable.1
      exact scanValue_objectText style strict keys
        (scanMembers_fieldsText key value fields (depth + 1) depth n rest readable.2 (by omega))
termination_by j => sizeOf j

theorem scanItems_itemsText : ∀ (item : Json) (items : List Json) (depth outer n : Nat)
    (rest : List Char), ItemsRereadable (item :: items) →
      2 * ((textAt style depth item).length + (itemsText style depth items).length) + 1 ≤ n →
      scanItems strict n (textAt style depth item ++
        (itemsText style depth items ++ (lineBreak style outer ++ ']' :: rest))) =
          .ok (rereadItems (item :: items), rest)
  | item, [], depth, outer, n + 1, rest, readable, fuel => by
      have first := scanValue_textAt item depth n (lineBreak style outer ++ ']' :: rest)
        readable.1 (numberEnds_closing style outer (.inl rfl) rest) (by omega)
      apply scanItems_last first
      exact (skipSpace_append (spaces_lineBreak style outer) _).trans (skipSpace_cons rfl rest)
  | item, next :: more, depth, outer, n + 1, rest, readable, fuel => by
      obtain ⟨gap, spaces, written⟩ := separator_eq style depth
      have first := scanValue_textAt item depth n
        (itemsText style depth (next :: more) ++ (lineBreak style outer ++ ']' :: rest))
        readable.1 (numberEnds_items style depth (.inl rfl) (next :: more) outer rest) (by omega)
      simp only [itemsText, written, List.length_cons, List.length_append] at fuel
      have others := scanItems_itemsText next more depth outer n rest readable.2 (by omega)
      have begins := (beginsValue_textAt style depth next).append
        (itemsText style depth more ++ (lineBreak style outer ++ ']' :: rest))
      rw [← begins.skipSpace_eq, ← skipSpace_append spaces] at others
      refine scanItems_more first ?_ others
      simp only [itemsText, written, List.cons_append, List.append_assoc]
      exact skipSpace_cons rfl _
termination_by item items => sizeOf (item :: items)

theorem scanMembers_fieldsText : ∀ (key : String) (value : Json) (fields : List (String × Json))
    (depth outer n : Nat) (rest : List Char), FieldsRereadable ((key, value) :: fields) →
      2 * ((textAt style depth value).length + (fieldsText style depth fields).length) + 1 ≤ n →
      scanMembers strict n (stringText style.asciiOnly key ++ ([':', ' '] ++
        (textAt style depth value ++
          (fieldsText style depth fields ++ (lineBreak style outer ++ '\x7d' :: rest))))) =
          .ok (rereadFields ((key, value) :: fields), rest)
  | key, value, [], depth, outer, n + 1, rest, readable, fuel => by
      have first := scanValue_textAt value depth n (lineBreak style outer ++ '\x7d' :: rest)
        readable.1 (numberEnds_closing style outer (.inr rfl) rest) (by omega)
      have close := (skipSpace_append (spaces_lineBreak style outer) _).trans
        (skipSpace_cons (c := '\x7d') rfl rest)
      exact scanMembers_last style.asciiOnly key ((beginsValue_textAt style depth value).append _)
        first close
  | key, value, (nextKey, nextValue) :: more, depth, outer, n + 1, rest, readable, fuel => by
      obtain ⟨gap, spaces, written⟩ := separator_eq style depth
      have first := scanValue_textAt value depth n
        (fieldsText style depth ((nextKey, nextValue) :: more) ++
          (lineBreak style outer ++ '\x7d' :: rest))
        readable.1 (numberEnds_fields style depth (.inr rfl) _ outer rest) (by omega)
      simp only [fieldsText, written, List.length_cons, List.length_append] at fuel
      have others := scanMembers_fieldsText nextKey nextValue more depth outer n rest readable.2
        (by omega)
      rw [← ((beginsValue_stringText style.asciiOnly nextKey).append _).skipSpace_eq,
        ← skipSpace_append spaces] at others
      refine scanMembers_more style.asciiOnly key ((beginsValue_textAt style depth value).append _)
        first ?_ others
      simp only [fieldsText, written, List.cons_append, List.append_assoc, List.nil_append,
        skipSpace_cons (c := ',') rfl]
termination_by key value fields => sizeOf ((key, value) :: fields)

end

end Reading

section Documents

variable (style : Style) (strict : Bool)

theorem read_textAt {j : Json} (readable : Rereadable j) :
    read strict (textAt style 0 j) = .ok (reread j) := by
  have value := scanValue_textAt style strict j 0 (2 * (textAt style 0 j).length + 2) []
    readable numberEnds_nil (by omega)
  rw [List.append_nil] at value
  rw [read, (beginsValue_textAt style 0 j).skipSpace_eq, value]
  rfl

theorem read_render {j : Json} (readable : Rereadable j) :
    read strict (render style j).toList = .ok (reread j) := by
  rw [render, String.toList_ofList]
  exact read_textAt style strict readable

theorem load_render {j : Json} (readable : Rereadable j) :
    load (render style j).toList = .ok (reread j) := by
  rw [load]
  · exact read_render style true readable
  · intro rest marked
    obtain ⟨c, more, text, -, -, -, noMark⟩ := beginsValue_textAt style 0 j
    rw [render, String.toList_ofList, text] at marked
    exact noMark (List.cons.inj marked).1

end Documents

end PromptCanvas.Json
