import PromptCanvas.Canvas.Layout
import PromptCanvas.Terminal.Arguments
import PromptCanvas.Terminal.Path

/-! # Commands

`Command`: what the words of a command line ask for.  `Invocation.read` gives
the first thing that is wrong with them; asking for help comes before every
fault but one in the options. -/

set_option autoImplicit false

namespace PromptCanvas.Terminal

inductive Command where
  | compile (path : Path) (asJson : Bool) (markdown : Option Path)
  | validate (path : Path)
  | layout (path : Path) (mode : LayoutMode)
  | generate (prompt : String)
  deriving DecidableEq, Repr

inductive Invocation where
  | help
  | command (c : Command)
  deriving DecidableEq, Repr

section Switches

def helpSwitch : Switch := ⟨"--help", none, false⟩

def jsonSwitch : Switch := ⟨"--json", none, false⟩

def markdownSwitch : Switch := ⟨"--markdown", some 'm', true⟩

def modeSwitch : Switch := ⟨"--mode", none, true⟩

def promptSwitch : Switch := ⟨"--prompt", some 'p', true⟩

end Switches

/-- A command by its name, its options and the reading of its arguments. -/
structure CommandForm where
  name : String
  switches : List Switch
  read : Arguments → Except Misuse Command

section Arguments

def pathOf (s : String) : Except Misuse Path :=
  match Path.read? s with
  | some p => .ok p
  | none => .error .zeroInPath

def onePath (a : Arguments) : Except Misuse Path :=
  match a.words with
  | [] => .error (.missingArgument "PATH")
  | s :: rest =>
      match pathOf s, rest with
      | .error m, _ => .error m
      | .ok p, [] => .ok p
      | .ok _, extra :: _ => .error (.extraArgument extra)

def noWord (a : Arguments) : Except Misuse Unit :=
  match a.words with
  | [] => .ok ()
  | extra :: _ => .error (.extraArgument extra)

def optionalPath (a : Arguments) (s : Switch) : Except Misuse (Option Path) :=
  match a.value? s.long with
  | none => .ok none
  | some value => (pathOf value).map some

def modeOf (a : Arguments) : Except Misuse LayoutMode :=
  match a.value? modeSwitch.long with
  | none => .ok .vertical
  | some name =>
      match LayoutMode.ofName? name with
      | some mode => .ok mode
      | none => .error (.badValue modeSwitch.long name)

def readCompile (a : Arguments) : Except Misuse Command := do
  let markdown ← optionalPath a markdownSwitch
  let path ← onePath a
  .ok (.compile path (a.has jsonSwitch.long) markdown)

def readValidate (a : Arguments) : Except Misuse Command := (onePath a).map .validate

def readLayout (a : Arguments) : Except Misuse Command := do
  let mode ← modeOf a
  let path ← onePath a
  .ok (.layout path mode)

def readGenerate (a : Arguments) : Except Misuse Command :=
  match a.value? promptSwitch.long with
  | none => .error (.missingValue promptSwitch.long)
  | some prompt => (noWord a).map fun _ => .generate prompt

end Arguments

section Reading

def commandForms : List CommandForm :=
  [⟨"compile", [jsonSwitch, markdownSwitch], readCompile⟩,
    ⟨"validate", [], readValidate⟩,
    ⟨"layout", [modeSwitch], readLayout⟩,
    ⟨"generate", [promptSwitch], readGenerate⟩]

def CommandForm.invocation (form : CommandForm) (words : List String) :
    Except Misuse Invocation :=
  match Arguments.scan (helpSwitch :: form.switches) true words with
  | .error m => .error m
  | .ok a => if a.has helpSwitch.long then .ok .help else (form.read a).map .command

def leadingArguments (words : List String) : Except Misuse Arguments :=
  Arguments.scan [helpSwitch] false words

/-- A word that is no command may still be an option that came after two dashes. -/
def unknownCommand (word : String) (rest : List String) : Except Misuse Invocation :=
  match leadingArguments (word :: rest) with
  | .error m => .error m
  | .ok a => if a.has helpSwitch.long then .ok .help else .error (.unknownCommand word)

def Invocation.read (words : List String) : Except Misuse Invocation :=
  match leadingArguments words with
  | .error m => .error m
  | .ok a =>
      if a.has helpSwitch.long then .ok .help
      else
        match a.words with
        | [] => .error .missingCommand
        | word :: rest =>
            match commandForms.find? fun form => form.name == word with
            | some form => form.invocation rest
            | none => unknownCommand word rest

end Reading

end PromptCanvas.Terminal
