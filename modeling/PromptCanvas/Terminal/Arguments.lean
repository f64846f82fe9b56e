/-! # Arguments

`Arguments.scan`: the words of a command line as options with their values and
the words that remain.  An option with a value takes the next word, whatever
that word is; two dashes alone end the options. -/

set_option autoImplicit false

namespace PromptCanvas.Terminal

/-- An option by its spellings: two dashes and a word, or a dash and a letter. -/
structure Switch where
  long : String
  short : Option Char
  takesValue : Bool
  deriving DecidableEq, Repr

inductive Misuse where
  | unknownOption (spelling : String)
  | missingValue (option : String)
  | unwantedValue (option : String)
  | missingArgument (name : String)
  | extraArgument (word : String)
  | missingCommand
  | unknownCommand (word : String)
  | badValue (option value : String)
  | zeroInPath
  deriving DecidableEq, Repr

def Misuse.message : Misuse → String
  | .unknownOption spelling => s!"No such option: {spelling}"
  | .missingValue option => s!"Option '{option}' requires an argument."
  | .unwantedValue option => s!"Option '{option}' does not take a value."
  | .missingArgument name => s!"Missing argument '{name}'."
  | .extraArgument word => s!"Got unexpected extra argument ({word})"
  | .missingCommand => "Missing command."
  | .unknownCommand word => s!"No such command '{word}'."
  | .badValue option value => s!"Invalid value for '{option}': '{value}'"
  | .zeroInPath => "embedded null byte"

/-- Options in the order in which they were given, by their long spellings. -/
structure Arguments where
  given : List (String × String)
  words : List String
  deriving DecidableEq, Repr

namespace Arguments

section Access

def has (a : Arguments) (long : String) : Bool := a.given.any fun g => g.1 == long

/-- The value of an option, the last one if it was given several times. -/
def value? (a : Arguments) (long : String) : Option String := a.given.reverse.lookup long

def give (a : Arguments) (settings : List (String × String)) : Arguments :=
  { a with given := settings ++ a.given }

def addWord (a : Arguments) (word : String) : Arguments := { a with words := word :: a.words }

end Access

/-- What one word sets, and the option that is left to take its value from the next word. -/
structure Setting where
  settings : List (String × String)
  awaiting : Option String
  deriving DecidableEq, Repr

section Words

variable (switches : List Switch)

def longSetting? (word : List Char) : Option (Except Misuse Setting) :=
  let name := String.ofList (word.takeWhile (· != '='))
  let attached := word.dropWhile (· != '=')
  match switches.find? fun s => s.long == name with
  | none => none
  | some s =>
      some <|
        match attached with
        | [] => .ok (if s.takesValue then ⟨[], some name⟩ else ⟨[(name, "")], none⟩)
        | _ :: value =>
            if s.takesValue then .ok ⟨[(name, String.ofList value)], none⟩
            else .error (.unwantedValue name)

/-- The letters after one dash; the first that takes a value takes the rest of them. -/
def shortSetting : List Char → Except Misuse Setting
  | [] => .ok ⟨[], none⟩
  | c :: rest =>
      match switches.find? fun s => s.short == some c with
      | none => .error (.unknownOption (String.ofList ['-', c]))
      | some s =>
          if s.takesValue then
            .ok (if rest.isEmpty then ⟨[], some s.long⟩
              else ⟨[(s.long, String.ofList rest)], none⟩)
          else
            match shortSetting rest with
            | .ok setting => .ok { setting with settings := (s.long, "") :: setting.settings }
            | .error m => .error m

def setting (word : List Char) : Except Misuse Setting :=
  match longSetting? switches word with
  | some result => result
  | none =>
      match word with
      | '-' :: '-' :: _ => .error (.unknownOption (String.ofList word))
      | _ => shortSetting switches word.tail

def isOption : List Char → Bool
  | '-' :: _ :: _ => true
  | _ => false

/-- `mixed` tells whether options may follow words.  An option that awaits its
value comes with the words that are left. -/
def scanFrom (mixed : Bool) : Option String → List String → Except Misuse Arguments
  | none, [] => .ok ⟨[], []⟩
  | some option, [] => .error (.missingValue option)
  | some option, value :: rest =>
      (scanFrom mixed none rest).map fun a => a.give [(option, value)]
  | none, word :: rest =>
      if word = "--" then .ok ⟨[], rest⟩
      else if isOption word.toList then
        match setting switches word.toList with
        | .error m => .error m
        | .ok s => (scanFrom mixed s.awaiting rest).map fun a => a.give s.settings
      else if mixed then (scanFrom mixed none rest).map fun a => a.addWord word
      else .ok ⟨[], word :: rest⟩

def scan (mixed : Bool) (words : List String) : Except Misuse Arguments :=
  scanFrom switches mixed none words

end Words

end Arguments

end PromptCanvas.Terminal
