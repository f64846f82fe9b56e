import PromptCanvas.Json.Basic
import PromptCanvas.Number.Numeral
import PromptCanvas.Text.Caseless

/-! # Records in JSON

`Checked`: a value that was read from JSON, or everything in it that does not
fit, each with its place.  Strings are read from strings only; numbers and
booleans also from values that spell them. -/

set_option autoImplicit false

namespace PromptCanvas

abbrev Place := List String

def Place.text (p : Place) : String := ".".intercalate p

/-- A value that has not the shape asked for, and where it stands; for a missing
field, the value that lacks it. -/
structure Misfit where
  place : Place
  given : Json

abbrev Checked (α : Type) := Except (List Misfit) α

namespace Checked

section Combining

variable {α β : Type}

def misfit (given : Json) : Checked α := .error [⟨[], given⟩]

def ofOption (given : Json) : Option α → Checked α
  | some a => .ok a
  | none => misfit given

/-- Two readings of one record: what does not fit in it is what fits neither. -/
def both : Checked α → Checked β → Checked (α × β)
  | .ok a, .ok b => .ok (a, b)
  | .ok _, .error misfits => .error misfits
  | .error misfits, .ok _ => .error misfits
  | .error misfits, .error others => .error (misfits ++ others)

def under (name : String) : Checked α → Checked α
  | .ok a => .ok a
  | .error misfits => .error (misfits.map fun m => { m with place := name :: m.place })

def all : List (Checked α) → Checked (List α)
  | [] => .ok []
  | c :: rest =>
      match both c (all rest) with
      | .ok (a, as) => .ok (a :: as)
      | .error misfits => .error misfits

def items (read : Json → Checked α) (js : List Json) : Checked (List α) :=
  all (js.mapIdx fun i j => under (toString i) (read j))

end Combining

section Scalars

def string (j : Json) : Checked String := ofOption j j.string?

def nullable {α : Type} (read : Json → Checked α) (j : Json) : Checked (Option α) :=
  match j with
  | .null => .ok none
  | _ => (read j).map some

/-- A number, a truth value as one or zero, or a string that spells a number; an
integer beyond the range of binary64 is none. -/
def number (j : Json) : Checked Binary64 :=
  match j with
  | .bool b => .ok (.ofNat (if b then 1 else 0))
  | .int n =>
      match Binary64.ofInt n with
      | .infinite _ => misfit j
      | x => .ok x
  | .float x => .ok x
  | .string s => ofOption j (Numeral.readField s.toList)
  | _ => misfit j

def trueWords : List (List Char) :=
  ["1", "on", "t", "true", "y", "yes"].map String.toList

def falseWords : List (List Char) :=
  ["0", "off", "f", "false", "n", "no"].map String.toList

def truthOfWord (cs : List Char) : Option Bool :=
  if trueWords.any (Text.sameWord cs) then some true
  else if falseWords.any (Text.sameWord cs) then some false
  else none

def truth (j : Json) : Checked Bool :=
  match j with
  | .bool b => .ok b
  | .int 0 => .ok false
  | .int 1 => .ok true
  | .float x =>
      match x.toInt with
      | some 0 => .ok false
      | some 1 => .ok true
      | _ => misfit j
  | .string s => ofOption j (truthOfWord s.toList)
  | _ => misfit j

end Scalars

section Fields

variable {α : Type}

def required (j : Json) (name : String) (read : Json → Checked α) : Checked α :=
  under name (if j.hasField name then read (j.field name) else misfit j)

def withDefault (j : Json) (name : String) (default : α) (read : Json → Checked α) : Checked α :=
  if j.hasField name then under name (read (j.field name)) else .ok default

def record (j : Json) (read : Json → Checked α) : Checked α :=
  if j.isObject then read j else misfit j

end Fields

end Checked

end PromptCanvas
