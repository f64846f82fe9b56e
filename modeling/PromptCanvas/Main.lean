import PromptCanvas.Terminal.Report

/-! # Command line

Reads the file that a command names, shows its report and writes the file that
it leaves.  The console shows every item with its style tags as they are.  No model is
connected, so a generation fails when it is sent. -/

set_option autoImplicit false

namespace PromptCanvas.Terminal

def faultOfError : IO.Error → FileFault
  | .noFileOrDirectory .. => .missing
  | .inappropriateType _ 21 _ => .isFolder
  | .inappropriateType _ _ _ => .notFolder
  | .permissionDenied _ number _ => .other number.toNat "Permission denied"
  | e => .other 5 (toString e)

def attempt {α : Type} (act : IO α) : IO (Except FileFault α) := do
  match ← act.toBaseIO with
  | .ok value => return .ok value
  | .error e => return .error (faultOfError e)

def readSource (c : Command) : IO (Except FileFault (List UInt8)) := do
  match c.source? with
  | none => return .error .missing
  | some path => return (← attempt (IO.FS.readBinFile path.text)).map fun bytes => bytes.data.toList

def writeSaved (r : Report) : IO (Option FileFault) := do
  match r.saved with
  | none => return none
  | some (path, text) =>
      match ← attempt (IO.FS.writeFile path.text text) with
      | .ok _ => return none
      | .error fault => return some fault

def Shown.written : Shown → String
  | .line markup => markup
  | .panel text title subtitle => s!"{title} {subtitle}\n{text}\n"
  | .code text => text
  | .table title columns rows =>
      "\n".intercalate (title :: (columns :: rows).map fun cells => "\t".intercalate cells)

def unconnected : Generation.Response := .failure "no model is connected"

/-- Carries out a command; a file that cannot be written changes its report. -/
def perform (c : Command) : IO Report := do
  let key := (← IO.getEnv "GEMINI_API_KEY").getD ""
  let found : Surroundings := ⟨← readSource c, none, fun _ => none, key, unconnected⟩
  let report := c.report found
  match ← writeSaved report with
  | none => return report
  | some fault => return c.report { found with obstacle := some fault }

def usage : String :=
  "Compile prompt-flow graphs into ordered prompt transcripts.\n\n" ++
    "  compile PATH [--json] [--markdown PATH]\n  validate PATH\n" ++
    "  layout PATH [--mode vertical|horizontal|grid]\n  generate --prompt TEXT"

end PromptCanvas.Terminal

open PromptCanvas.Terminal in
def main (words : List String) : IO UInt32 := do
  match Invocation.read words with
  | .error misuse =>
      IO.eprintln misuse.message
      return UInt32.ofNat Ending.misused.exitCode
  | .ok .help =>
      IO.println usage
      return 0
  | .ok (.command c) =>
      let report ← perform c
      for item in report.shown do IO.println item.written
      if let .crashed cause := report.ending then IO.eprintln cause.message
      return UInt32.ofNat report.ending.exitCode
