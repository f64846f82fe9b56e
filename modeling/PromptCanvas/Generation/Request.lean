import PromptCanvas.Generation.Contract
import PromptCanvas.Generation.Reply
import PromptCanvas.Graph.Reading
import PromptCanvas.Import.Document
import PromptCanvas.Json.Record

/-! # Generation

`Generation.run`: asks a model for a graph and reads its reply.  The result is a
valid graph or the cause of the failure, together with the key that a client was
made with and the call that was made. -/

set_option autoImplicit false

namespace PromptCanvas.Generation

structure Request where
  prompt : String
  key : Option String
  deriving DecidableEq, Repr

def Request.read (j : Json) : Checked Request :=
  .record j fun j =>
    let prompt := Checked.required j "prompt" .string
    let key := Checked.withDefault j "api_key" none (.nullable .string)
    (Checked.both prompt key).map fun (prompt, key) => ⟨prompt, key⟩

structure Service where
  key : String
  model : String
  deriving DecidableEq, Repr

def Service.of (key model : String) : Service :=
  ⟨key, if model.isEmpty then Contract.defaultModel else model⟩

structure Call where
  model : String
  contents : String
  instruction : String
  answerType : String
  deriving DecidableEq, Repr

inductive Response where
  | failure (message : String)
  | reply (v : Reply.Value)

inductive Failure where
  | missingKey
  | missingPrompt
  | requestFailed (message : String)
  | emptyReply
  | rejected (reason : Graph.Reason)
  | textWithoutTrim (kind : String)
  | textInBytes
  | overlong (n : Json.Overlong)
  deriving DecidableEq, Repr

def Failure.message : Failure → String
  | .missingKey => "API key is required."
  | .missingPrompt => "Please describe the flow you want to generate."
  | .requestFailed message => s!"Generation request failed: {message}"
  | .emptyReply => "Generation response was empty."
  | .rejected reason => reason.message
  | .textWithoutTrim kind => s!"'{kind}' object has no attribute 'strip'"
  | .textInBytes => "cannot use a string pattern on a bytes-like object"
  | .overlong n => n.message

/-- An answer that cannot be searched for a document is no failure of the generation. -/
def Failure.escapes : Failure → Bool
  | .textWithoutTrim _ => true
  | .textInBytes => true
  | .overlong _ => true
  | _ => false

structure Outcome where
  keys : List String
  calls : List Call
  result : Except Failure Graph

section Reading

def kindName : Reply.Value → String
  | .none => "NoneType"
  | .truth _ => "bool"
  | .int _ => "int"
  | .float _ => "float"
  | .text _ => "str"
  | .bytes _ => "bytes"
  | .list _ => "list"
  | .record _ => "types.SimpleNamespace"

def isBlankByte (b : UInt8) : Bool := (9 ≤ b && b ≤ 13) || b == 32

/-- The document of an answer; an answer in bytes can only be blank. -/
def documentOf (answer : Reply.Value) : Except Failure Json :=
  match answer with
  | .text s =>
      match Document.extract true s.toList with
      | .ok found => .ok (found.getD .null)
      | .error n => .error (.overlong n)
  | .bytes bs =>
      if bs.all isBlankByte then .ok .null else .error .textInBytes
  | v => .error (.textWithoutTrim (kindName v))

def readAnswer (answer : Reply.Value) : Except Failure Graph :=
  if !answer.isPresent then .error .emptyReply
  else
    match documentOf answer with
    | .error e => .error e
    | .ok j =>
        match Graph.read j with
        | .ok g => .ok g
        | .error r => .error (.rejected r)

def conclude : Response → Except Failure Graph
  | .failure message => .error (.requestFailed message)
  | .reply v => readAnswer (Reply.answer v)

end Reading

section Running

/-- The trimmed key of a request, or that of the service in place of an empty one. -/
def effectiveKey (service : Service) (request : Request) : String :=
  let own := request.key.getD ""
  Text.trimmed (if own.isEmpty then service.key else own)

/-- `clientFault` is the message with which making a client fails, if it does. -/
def run (service : Service) (request : Request) (clientFault : Option String)
    (response : Response) : Outcome :=
  let key := effectiveKey service request
  let prompt := Text.trimmed request.prompt
  if key.isEmpty then ⟨[], [], .error .missingKey⟩
  else if prompt.isEmpty then ⟨[], [], .error .missingPrompt⟩
  else
    match clientFault with
    | some message => ⟨[key], [], .error (.requestFailed message)⟩
    | none =>
        let call := ⟨service.model, prompt, Contract.instruction, Contract.answerType⟩
        ⟨[key], [call], conclude response⟩

end Running

end PromptCanvas.Generation
