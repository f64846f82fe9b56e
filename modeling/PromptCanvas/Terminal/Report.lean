import PromptCanvas.Canvas.Transcript
import PromptCanvas.Json.Printer
import PromptCanvas.Json.Reader
import PromptCanvas.Number.Spelling
import PromptCanvas.Terminal.Command
import PromptCanvas.Terminal.Disk
import PromptCanvas.Terminal.Screen
import PromptCanvas.Text.Utf8
import PromptCanvas.Workspace.Session

/-! # Reports

`Command.report`: what a command shows, the file that it leaves and how it
ends.  A command ends where its console does not show what it is handed.
`Disk.run` is a whole command line on a disk. -/

set_option autoImplicit false

namespace PromptCanvas.Terminal

inductive Crash where
  | undecodable
  | overlong (n : Json.Overlong)
  | unwritable (fault : FileFault)
  | generation (failure : Generation.Failure)
  | unshown (fault : ConsoleFault)
  deriving DecidableEq, Repr

def Crash.message : Crash → String
  | .undecodable => "The file holds no UTF-8 text."
  | .overlong n => n.message
  | .unwritable fault => fault.reason
  | .generation failure => failure.message
  | .unshown fault => fault.message

inductive Ending where
  | done
  | refused
  | misused
  | crashed (cause : Crash)
  deriving DecidableEq, Repr

def Ending.exitCode : Ending → Nat
  | .done => 0
  | .misused => 2
  | _ => 1

structure Report where
  shown : List Shown
  saved : Option (Path × String)
  keys : List String
  ending : Ending
  deriving DecidableEq, Repr

/-- What a command finds: what its file reads as, what keeps its other file from
being written, its console, the configured key, and what the model does. -/
structure Surroundings where
  source : Except FileFault (List UInt8)
  obstacle : Option FileFault
  console : Console
  key : String
  response : Generation.Response

namespace Report

section Endings

def done : Report := ⟨[], none, [], .done⟩

def refused : Report := ⟨[], none, [], .refused⟩

def crashed (cause : Crash) : Report := ⟨[], none, [], .crashed cause⟩

/-- A report once some items were shown before it; the first that the console does not
show is the end of it. -/
def after (console : Console) : List Shown → Report → Report
  | [], r => r
  | item :: items, r =>
      match console item with
      | some fault => crashed (.unshown fault)
      | none =>
          let r := after console items r
          { r with shown := item :: r.shown }

def complaint (heading reason : String) : Shown :=
  .line (styled "bold red" heading ++ " " ++ reason)

def refuse (console : Console) (heading reason : String) : Report :=
  after console [complaint heading reason] refused

def error (console : Console) (reason : String) : Report := refuse console "Error:" reason

end Endings

section Reading

/-- The text of a file, with the report of what keeps it from being read. -/
def sourceText (s : Surroundings) (unread : FileFault → String) : Except Report String :=
  match s.source with
  | .error fault => .error (error s.console (unread fault))
  | .ok bytes =>
      match Text.decodeUtf8? bytes with
      | none => .error (crashed .undecodable)
      | some text => .ok (String.ofList (Text.universalNewlines text.toList))

def sourceCanvas (path : Path) (s : Surroundings) : Except Report Canvas :=
  match sourceText s fun fault => s!"could not read {path.text}: {fault.message path}" with
  | .error r => .error r
  | .ok text =>
      match Workspace.graphOfText text with
      | .error (.overlong n) => .error (crashed (.overlong n))
      | .error failure => .error (error s.console failure.message)
      | .ok g => .ok (g.layOut.complete .start).1

end Reading

section Showing

def graphCode (g : Graph) : Shown := .code (g.toJson.render .document)

def stepPanel (s : Transcript.Step) : Shown :=
  .panel (withoutControls s.shown) (tagged s.role.style s!"[{s.step}] {s.role.heading}") s.label

def transcript (t : Transcript) (asJson : Bool) : List Shown :=
  if asJson then [graphCode t.graph] else t.steps.map stepPanel

def nodeRow (n : Canvas.Node) : List String :=
  [n.id, tagged n.role.style n.role.name, String.ofList n.position.x.compactText,
    String.ofList n.position.y.compactText]

def positions (mode : LayoutMode) (nodes : List Canvas.Node) : Shown :=
  .table s!"{mode.name} layout" ["Node", "Role", "x", "y"] (nodes.map nodeRow)

end Showing

section Commands

def compile (path : Path) (asJson : Bool) (markdown : Option Path) (s : Surroundings) : Report :=
  match sourceCanvas path s with
  | .error r => r
  | .ok c =>
      let t := Transcript.of c.nodes c.edges
      after s.console (transcript t asJson) <|
        match markdown, s.obstacle with
        | none, _ => done
        | some _, some fault => crashed (.unwritable fault)
        | some target, none =>
            let told := Shown.line (styled "green" s!"Markdown written to {target.text}")
            { after s.console [told] done with saved := some (target, t.markdown) }

def validate (path : Path) (s : Surroundings) : Report :=
  match sourceText s fun fault => fault.message path with
  | .error r => r
  | .ok text =>
      match Json.load text.toList with
      | .error fault =>
          match fault.overlong? with
          | some n => crashed (.overlong n)
          | none => error s.console fault.message
      | .ok candidate =>
          match Graph.reason? candidate with
          | some reason => refuse s.console "Invalid:" reason.message
          | none => after s.console [.line (styled "bold green" "Valid flow.")] done

def layout (path : Path) (mode : LayoutMode) (s : Surroundings) : Report :=
  match sourceCanvas path s with
  | .error r => r
  | .ok c => after s.console [positions mode (Canvas.arrange mode c.nodes c.edges)] done

/-- How a generation ends: a reply that cannot be searched is no failure of the generation. -/
def generated (console : Console) : Except Generation.Failure Graph → Report
  | .ok g =>
      after console [.line ("\n" ++ styled "bold green" "Generated Flow:"), graphCode g] done
  | .error failure =>
      if failure.escapes then crashed (.generation failure)
      else refuse console "Generation failed:" failure.message

def generate (prompt : String) (s : Surroundings) : Report :=
  if s.key.isEmpty then error s.console "GEMINI_API_KEY is not set in your .env file."
  else
    let out := Generation.run (.of s.key "") ⟨prompt, none⟩ none s.response
    after s.console [.line (styled "cyan" "Querying generation model...")]
      { generated s.console out.result with keys := out.keys }

end Commands

end Report

section Running

def Command.report (s : Surroundings) : Command → Report
  | .compile path asJson markdown => Report.compile path asJson markdown s
  | .validate path => Report.validate path s
  | .layout path mode => Report.layout path mode s
  | .generate prompt => Report.generate prompt s

def Command.source? : Command → Option Path
  | .compile path _ _ => some path
  | .validate path => some path
  | .layout path _ => some path
  | .generate _ => none

def Command.target? : Command → Option Path
  | .compile _ _ markdown => markdown
  | _ => none

end Running

end PromptCanvas.Terminal

namespace PromptCanvas.Disk

open PromptCanvas.Terminal

section Running

def surroundings (d : Disk) (c : Command) (console : Console) (key : String)
    (response : Generation.Response) : Surroundings :=
  { source := (c.source?.map d.read).getD (.error .missing)
    obstacle := c.target?.bind d.obstacle
    console := console
    key := key
    response := response }

def keep (d : Disk) (r : Report) : Disk :=
  match r.saved with
  | some (path, text) => d.write path (Text.encodeUtf8 text)
  | none => d

def run (d : Disk) (words : List String) (console : Console) (key : String)
    (response : Generation.Response) : Report × Disk :=
  match Invocation.read words with
  | .error _ => (⟨[], none, [], .misused⟩, d)
  | .ok .help => (.done, d)
  | .ok (.command c) =>
      let report := c.report (d.surroundings c console key response)
      (report, d.keep report)

end Running

end PromptCanvas.Disk
