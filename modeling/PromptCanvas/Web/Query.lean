import PromptCanvas.Text.Hex
import PromptCanvas.Text.Lines
import PromptCanvas.Text.Utf8

/-! # Targets of requests

`Target.parse`: the path of a request without its escapes, and the query after
it.  A client drops the fragment, the authority and the dot segments of what it
is asked for; its escapes are undone twice, by the client and by the server.  Of
a parameter that is repeated the last value counts. -/

set_option autoImplicit false

namespace PromptCanvas.Web

structure Target where
  path : String
  query : String
  deriving DecidableEq, Repr

namespace Target

section Escapes

/-- The bytes of a text in which two hexadecimal digits after a percent sign are a byte. -/
def escapedBytes : List Char → List UInt8
  | [] => []
  | '%' :: a :: b :: rest =>
      match Text.hexValue? a, Text.hexValue? b with
      | some x, some y => (x * 16 + y).toUInt8 :: escapedBytes rest
      | _, _ => Text.encodeUtf8 "%" ++ escapedBytes (a :: b :: rest)
  | c :: rest => Text.encodeUtf8 (String.singleton c) ++ escapedBytes rest

/-- The text without its escapes; bytes that make no character are replaced. -/
def unescape (cs : List Char) : List Char := Text.decodeUtf8Lossy (escapedBytes cs)

/-- Escapes the characters that would end a path or begin an escape. -/
def escape (cs : List Char) : List Char :=
  cs.flatMap fun c =>
    if c = '%' then ['%', '2', '5']
    else if c = '?' then ['%', '3', 'F']
    else if c = '#' then ['%', '2', '3']
    else [c]

end Escapes

section Parsing

/-- The text before the first occurrence of a character, and the text after it. -/
def splitFirst (sep : Char) (cs : List Char) : List Char × List Char :=
  ((Text.cut? [sep] cs).getD (cs, []))

/-- Two slashes at the start are followed by the name of a server. -/
def withoutAuthority : List Char → List Char
  | '/' :: '/' :: rest => rest.dropWhile (· != '/')
  | cs => cs

/-- One more segment of a path, after those before it in reverse: a dot stays,
and two dots go back, but not beyond the root. -/
def addSegment (done : List (List Char)) (segment : List Char) : List (List Char) :=
  if segment = ['.'] then done
  else if segment = ['.', '.'] then (if done = [[]] then done else done.tail)
  else segment :: done

def withoutDots (path : List Char) : List Char :=
  ['/'].intercalate ((Text.splitOn '/' path).foldl addSegment []).reverse

def sentPath (path : List Char) : List Char :=
  match withoutDots ('/' :: (withoutAuthority path).dropWhile (· == '/')) with
  | [] => ['/']
  | sent => sent

def parse (target : String) : Target :=
  let (path, query) := splitFirst '?' (splitFirst '#' target.toList).1
  ⟨String.ofList (unescape (unescape (sentPath path))), String.ofList query⟩

end Parsing

section Parts

def segments (t : Target) : List String := (Text.splitOn '/' t.path.toList).map String.ofList

def parameter (cs : List Char) : String × String :=
  let (name, value) := splitFirst '=' (cs.map fun c => if c = '+' then ' ' else c)
  (String.ofList (unescape name), String.ofList (unescape value))

def parameters (t : Target) : List (String × String) :=
  ((Text.splitOn '&' t.query.toList).filter fun part => !part.isEmpty).map parameter

def parameter? (t : Target) (name : String) : Option String := t.parameters.reverse.lookup name

end Parts

section Redirection

def withoutSlashes (t : Target) : Target :=
  { t with path := String.ofList (t.path.toList.reverse.dropWhile (· == '/')).reverse }

def spelling (t : Target) : String :=
  String.ofList (escape t.path.toList) ++ (if t.query.isEmpty then "" else "?" ++ t.query)

end Redirection

end Target

end PromptCanvas.Web
