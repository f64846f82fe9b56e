import PromptCanvas.IdSupply
import PromptCanvas.Json.Display
import PromptCanvas.Number.Numeral

/-! # List items

`Level`: the three levels of a numbered list; `Level.ofJson` makes one of any
value.  `Entry` is a line of a list, `Item` an entry with an identifier, and
`Draft` an entry that may still lack one. -/

set_option autoImplicit false

namespace PromptCanvas

inductive Level where
  | one
  | two
  | three
  deriving DecidableEq, Repr

namespace Level

section Clamping

def toNat : Level → Nat
  | .one => 1
  | .two => 2
  | .three => 3

def ofInt (n : Int) : Level := if n ≤ 1 then .one else if n ≤ 2 then .two else .three

def ofFloat (x : Binary64) : Level :=
  match x.truncate with
  | some n => ofInt n
  | none => .one

/-- An integer counts as the number that it is rounded to, so one beyond the range of binary64
counts as one, and so does any value that is no number. -/
def ofJson : Json → Level
  | .int n => ofFloat (Binary64.ofInt n)
  | .float x => ofFloat x
  | .string s =>
      match Numeral.readAny s.toList with
      | some x => ofFloat x
      | none => .one
  | _ => .one

end Clamping

end Level

section Entries

structure Entry where
  text : String
  level : Level
  deriving DecidableEq, Repr

structure Item extends Entry where
  id : String
  deriving DecidableEq, Repr

structure Draft extends Entry where
  id : Option String
  deriving DecidableEq, Repr

def Entry.blank : Entry := ⟨"", .one⟩

def Entry.draft (e : Entry) : Draft := { e with id := none }

end Entries

namespace Draft

section Reading

/-- A missing or null text is empty, and a text of any other kind is displayed. -/
def textOf (j : Json) : String :=
  match j.field "text" with
  | .null => ""
  | text => text.display

/-- A string is a text of the first level and an object a partial item; any
other value leaves a blank item. -/
def ofJson : Json → Draft
  | .string s => { text := s, level := .one, id := none }
  | .object fields =>
      let j := Json.object fields
      { text := textOf j
        level := .ofJson (j.field "level")
        id :=
          match j.field "id" with
          | .string s => if s.isEmpty then none else some s
          | _ => none }
  | _ => Entry.blank.draft

end Reading

section Completion

/-- The item of a draft, with a fresh identifier if it has none. -/
def complete (d : Draft) (ids : IdSupply) : Item × IdSupply :=
  match d.id with
  | some id => ({ d.toEntry with id := id }, ids)
  | none =>
      let (id, ids) := ids.drawItem
      ({ d.toEntry with id := id }, ids)

def completeAll : List Draft → IdSupply → List Item × IdSupply
  | [], ids => ([], ids)
  | d :: ds, ids =>
      let (item, ids) := d.complete ids
      let (items, ids) := completeAll ds ids
      (item :: items, ids)

end Completion

end Draft

namespace Item

def toJson (item : Item) : Json :=
  .object [("id", .string item.id), ("text", .string item.text), ("level", .nat item.level.toNat)]

end Item

end PromptCanvas
