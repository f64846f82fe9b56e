/-! # Faults in a JSON text

`Json.Fault`: what is wrong with a text that is not JSON, and where.  A text may also
be JSON and still not be read, for an integer in it that is too long (`Json.Overlong`). -/

set_option autoImplicit false

namespace PromptCanvas.Json

def digitLimit : Nat := 4300

/-- An integer of more digits than an integer may have. -/
structure Overlong where
  digits : Nat
  deriving DecidableEq, Repr

def Overlong.message (n : Overlong) : String :=
  s!"Exceeds the limit ({digitLimit} digits) for integer string conversion: " ++
    s!"value has {n.digits} digits; use sys.set_int_max_str_digits() to increase the limit"

inductive FaultKind where
  | expectingValue
  | extraData
  | expectingName
  | expectingComma
  | expectingColon
  | unterminatedString
  | badUnicodeEscape
  | badEscape
  | controlCharacter
  | byteOrderMark
  | emptyPayload
  | unparsedPayload
  | overlong (n : Overlong)
  deriving DecidableEq, Repr

def FaultKind.message : FaultKind → String
  | .expectingValue => "Expecting value"
  | .extraData => "Extra data"
  | .expectingName => "Expecting property name enclosed in double quotes"
  | .expectingComma => "Expecting ',' delimiter"
  | .expectingColon => "Expecting ':' delimiter"
  | .unterminatedString => "Unterminated string starting at"
  | .badUnicodeEscape => "Invalid \\uXXXX escape"
  | .badEscape => "Invalid \\escape"
  | .controlCharacter => "Invalid control character at"
  | .byteOrderMark => "Unexpected UTF-8 BOM (decode using utf-8-sig)"
  | .emptyPayload => "JSON payload is empty"
  | .unparsedPayload => "Unable to parse JSON payload"
  | .overlong n => n.message

/-- A fault at a character position; lines and columns count from one. -/
structure Fault where
  kind : FaultKind
  line : Nat
  column : Nat
  position : Nat
  deriving DecidableEq, Repr

namespace Fault

def located (kind : FaultKind) (text rest : List Char) : Fault :=
  let before := text.take (text.length - rest.length)
  { kind := kind
    line := before.count '\n' + 1
    column := (before.reverse.takeWhile (· != '\n')).length + 1
    position := before.length }

def atStart (kind : FaultKind) : Fault := ⟨kind, 1, 1, 0⟩

/-- The integer that was too long, if that is the fault; any other is one of the syntax. -/
def overlong? (f : Fault) : Option Overlong :=
  match f.kind with
  | .overlong n => some n
  | _ => none

/-- Only a fault of the syntax is told with its place. -/
def message (f : Fault) : String :=
  if f.overlong?.isSome then f.kind.message
  else s!"{f.kind.message}: line {f.line} column {f.column} (char {f.position})"

end Fault

end PromptCanvas.Json
