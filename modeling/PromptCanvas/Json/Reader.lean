import PromptCanvas.Json.Basic
import PromptCanvas.Json.Fault
import PromptCanvas.Number.Numeral
import PromptCanvas.Text.Hex
import PromptCanvas.Text.Wide

/-! # Reading JSON

`Json.read`: the value of a JSON text, or its first fault.  Beyond the standard
grammar it takes `NaN` and the two infinities; of a repeated key the last value
counts; control characters inside strings are allowed unless the reading is
strict; and an integer has at most `digitLimit` digits.  `Json.load` is the
strict reading of a whole document. -/

set_option autoImplicit false

namespace PromptCanvas.Json

/-- What was read and what follows it, or a fault before the remaining text. -/
abbrev Scan (α : Type) := Except (FaultKind × List Char) (α × List Char)

section Strings

def simpleEscape? : Char → Option Char
  | '"' => some '"'
  | '\\' => some '\\'
  | '/' => some '/'
  | 'b' => some '\x08'
  | 'f' => some '\x0c'
  | 'n' => some '\n'
  | 'r' => some '\r'
  | 't' => some '\t'
  | _ => none

def consUnit (unit : Nat) : Scan (List Nat) → Scan (List Nat)
  | .ok (units, rest) => .ok (unit :: units, rest)
  | .error e => .error e

/-- The code units up to the closing mark; `start` begins with the opening mark.
Four hexadecimal digits count only if the text goes on after them. -/
def stringUnits (strict : Bool) (start : List Char) : List Char → Scan (List Nat)
  | [] => .error (.unterminatedString, start)
  | c :: rest =>
      if c = '"' then .ok ([], rest)
      else if c = '\\' then
        match rest with
        | [] => .error (.unterminatedString, start)
        | 'u' :: more =>
            match more with
            | a :: b :: c :: d :: e :: others =>
                match Text.hexNumber? [a, b, c, d] with
                | some unit => consUnit unit (stringUnits strict start (e :: others))
                | none => .error (.badUnicodeEscape, rest)
            | _ => .error (.badUnicodeEscape, rest)
        | e :: more =>
            match simpleEscape? e with
            | some plain => consUnit plain.toNat (stringUnits strict start more)
            | none => .error (.badEscape, c :: rest)
      else if strict && c.toNat < 0x20 then .error (.controlCharacter, c :: rest)
      else consUnit c.toNat (stringUnits strict start rest)

/-- The string whose opening mark begins `start`, and `rest` after that mark. -/
def scanString (strict : Bool) (start rest : List Char) : Scan String :=
  match stringUnits strict start rest with
  | .ok (units, rest) => .ok (String.ofList (Text.charsOfUnits units), rest)
  | .error e => .error e

end Strings

section Numbers

def wholeDigits? : List Char → Option (List Char × List Char)
  | '0' :: rest => some (['0'], rest)
  | cs =>
      match cs.span Char.isDigit with
      | ([], _) => none
      | found => some found

def fractionDigits (cs : List Char) : List Char × List Char :=
  match cs with
  | '.' :: after =>
      match after.span Char.isDigit with
      | ([], _) => ([], cs)
      | found => found
  | _ => ([], cs)

/-- An exponent mark counts only with a digit after it and its sign. -/
def exponentPart? (cs : List Char) : Option (Int × List Char) :=
  match cs with
  | e :: after =>
      if e = 'e' || e = 'E' then
        let (negative, ds) := Numeral.signOf after
        match ds.span Char.isDigit with
        | ([], _) => none
        | (digits, rest) =>
            let n := (Numeral.natOf digits : Int)
            some (if negative then -n else n, rest)
      else none
  | [] => none

def integer (negative : Bool) (digits : List Char) : Except Overlong Json :=
  if digitLimit < digits.length then .error ⟨digits.length⟩
  else
    let n := (Numeral.natOf digits : Int)
    .ok (.int (if negative then -n else n))

/-- The number of a sign, an integer part and what follows it, and the rest.  Without point
and exponent it is an integer, otherwise a binary64 number. -/
def afterWhole (negative : Bool) (whole rest : List Char) : Except Overlong Json × List Char :=
  let (fraction, rest) := fractionDigits rest
  let n := Numeral.natOf (whole ++ fraction)
  match exponentPart? rest with
  | some (e, rest) => (.ok (.float (Numeral.scaled negative n (e - fraction.length))), rest)
  | none =>
      if fraction.isEmpty then (integer negative whole, rest)
      else (.ok (.float (Numeral.scaled negative n (-(fraction.length : Int)))), rest)

def scanNumber? (cs : List Char) : Option (Except Overlong Json × List Char) :=
  let (negative, unsigned) :=
    match cs with
    | '-' :: rest => (true, rest)
    | _ => (false, cs)
  (wholeDigits? unsigned).map fun (whole, rest) => afterWhole negative whole rest

end Numbers

section Values

def isJsonSpace (c : Char) : Bool := c = ' ' || c = '\t' || c = '\n' || c = '\r'

def skipSpace (cs : List Char) : List Char := cs.dropWhile isJsonSpace

def literals : List (List Char × Json) :=
  [("null".toList, .null), ("true".toList, .bool true), ("false".toList, .bool false),
    ("NaN".toList, .float .nan), ("Infinity".toList, .float (.infinite false)),
    ("-Infinity".toList, .float (.infinite true))]

def scanned : Except Overlong Json × List Char → Scan Json
  | (.ok v, rest) => .ok (v, rest)
  | (.error n, rest) => .error (.overlong n, rest)

def scanScalar (cs : List Char) : Scan Json :=
  match literals.findSome? fun l => (l.1.isPrefixOf? cs).map fun rest => (l.2, rest) with
  | some found => .ok found
  | none =>
      match scanNumber? cs with
      | some found => scanned found
      | none => .error (.expectingValue, cs)

mutual

/-- One value at the start of the text; `depth` bounds the nested readings. -/
def scanValue (strict : Bool) : Nat → List Char → Scan Json
  | 0, cs => .error (.expectingValue, cs)
  | depth + 1, cs =>
      match cs with
      | '"' :: rest =>
          match scanString strict cs rest with
          | .ok (s, rest) => .ok (.string s, rest)
          | .error e => .error e
      | '[' :: rest =>
          match skipSpace rest with
          | ']' :: rest => .ok (.array [], rest)
          | rest =>
              match scanItems strict depth rest with
              | .ok (items, rest) => .ok (.array items, rest)
              | .error e => .error e
      | '{' :: rest =>
          match skipSpace rest with
          | '}' :: rest => .ok (.object [], rest)
          | rest =>
              match scanMembers strict depth rest with
              | .ok (fields, rest) => .ok (.ofFields fields, rest)
              | .error e => .error e
      | _ => scanScalar cs

/-- The items of an array from one of them up to the closing bracket. -/
def scanItems (strict : Bool) : Nat → List Char → Scan (List Json)
  | 0, cs => .error (.expectingValue, cs)
  | depth + 1, cs =>
      match scanValue strict depth cs with
      | .error e => .error e
      | .ok (item, rest) =>
          match skipSpace rest with
          | ']' :: rest => .ok ([item], rest)
          | ',' :: rest =>
              match scanItems strict depth (skipSpace rest) with
              | .ok (items, rest) => .ok (item :: items, rest)
              | .error e => .error e
          | rest => .error (.expectingComma, rest)

/-- The fields of an object from one of them up to the closing brace. -/
def scanMembers (strict : Bool) : Nat → List Char → Scan (List (String × Json))
  | 0, cs => .error (.expectingName, cs)
  | depth + 1, cs =>
      match cs with
      | '"' :: rest =>
          match scanString strict cs rest with
          | .error e => .error e
          | .ok (key, rest) =>
              match skipSpace rest with
              | ':' :: rest =>
                  match scanValue strict depth (skipSpace rest) with
                  | .error e => .error e
                  | .ok (value, rest) =>
                      match skipSpace rest with
                      | '}' :: rest => .ok ([(key, value)], rest)
                      | ',' :: rest =>
                          match scanMembers strict depth (skipSpace rest) with
                          | .ok (fields, rest) => .ok ((key, value) :: fields, rest)
                          | .error e => .error e
                      | rest => .error (.expectingComma, rest)
              | rest => .error (.expectingColon, rest)
      | _ => .error (.expectingName, cs)

end

end Values

section Documents

/-- The value of a text that holds one value and blanks around it. -/
def read (strict : Bool) (cs : List Char) : Except Fault Json :=
  match scanValue strict (2 * cs.length + 2) (skipSpace cs) with
  | .error (kind, rest) => .error (.located kind cs rest)
  | .ok (value, rest) =>
      match skipSpace rest with
      | [] => .ok value
      | rest => .error (.located .extraData cs rest)

/-- The strict reading of a document, which has no byte order mark. -/
def load (cs : List Char) : Except Fault Json :=
  match cs with
  | '\ufeff' :: _ => .error (.atStart .byteOrderMark)
  | _ => read true cs

end Documents

end PromptCanvas.Json
