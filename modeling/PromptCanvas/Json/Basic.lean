import PromptCanvas.Number.Binary64

/-! # JSON values

`Json`: null, booleans, integers of any size, binary64 numbers, strings,
arrays, and objects whose fields keep their order.  `Json.same` compares
values as data: numbers by value, objects without regard to order. -/

set_option autoImplicit false

namespace PromptCanvas

inductive Json where
  | null
  | bool (b : Bool)
  | int (n : Int)
  | float (x : Binary64)
  | string (s : String)
  | array (items : List Json)
  | object (fields : List (String × Json))
  deriving Repr, Inhabited

namespace Json

section Access

def field (j : Json) (key : String) : Json :=
  match j with
  | .object fields => (fields.lookup key).getD .null
  | _ => .null

def hasField (j : Json) (key : String) : Bool :=
  match j with
  | .object fields => (fields.lookup key).isSome
  | _ => false

def string? : Json → Option String
  | .string s => some s
  | _ => none

def array? : Json → Option (List Json)
  | .array items => some items
  | _ => none

def isObject : Json → Bool
  | .object _ => true
  | _ => false

def ofOption {α : Type} (f : α → Json) : Option α → Json
  | none => .null
  | some a => f a

def nat (n : Nat) : Json := .int n

/-- Writes a field: a repeated key keeps its place and takes the later value. -/
def insertField (key : String) (value : Json) : List (String × Json) → List (String × Json)
  | [] => [(key, value)]
  | (k, v) :: rest =>
      if k = key then (k, value) :: rest else (k, v) :: insertField key value rest

def ofFields (fields : List (String × Json)) : Json :=
  .object (fields.foldl (fun done f => insertField f.1 f.2 done) [])

end Access

section Sameness

/-- The value of a scalar number; booleans count as zero and one. -/
inductive Amount where
  | whole (n : Int)
  | other (x : Binary64)

def amount? : Json → Option Amount
  | .bool b => some (.whole (if b then 1 else 0))
  | .int n => some (.whole n)
  | .float x =>
      match x.toInt with
      | some n => some (.whole n)
      | none => some (.other x)
  | _ => none

def sameScalar (a b : Json) : Bool :=
  match a, b with
  | .null, .null => true
  | .string s, .string t => s == t
  | _, _ =>
      match amount? a, amount? b with
      | some (.whole m), some (.whole n) => m == n
      | some (.other x), some (.other y) => x.eq y
      | _, _ => false

mutual

def same : Json → Json → Bool
  | .array xs, .array ys => sameItems xs ys
  | .object xs, .object ys => xs.length == ys.length && sameFields xs ys
  | a, b => sameScalar a b

def sameItems : List Json → List Json → Bool
  | [], [] => true
  | x :: xs, y :: ys => same x y && sameItems xs ys
  | _, _ => false

def sameFields : List (String × Json) → List (String × Json) → Bool
  | [], _ => true
  | (key, v) :: rest, ys =>
      (match ys.lookup key with
      | some w => same v w
      | none => false) && sameFields rest ys

end

end Sameness

end Json

end PromptCanvas
