import PromptCanvas.Terminal.Path
import PromptCanvas.Text.Quoted

/-! # Files

`FileFault`: why a file cannot be read or written.  `Disk`: the files and folders
below the folder in which a command runs; what lies outside of it is taken for
folders without files. -/

set_option autoImplicit false

namespace PromptCanvas

inductive FileFault where
  | missing
  | isFolder
  | notFolder
  | longName
  | other (number : Nat) (reason : String)
  deriving DecidableEq, Repr

namespace FileFault

section Messages

def number : FileFault → Nat
  | .missing => 2
  | .isFolder => 21
  | .notFolder => 20
  | .longName => 36
  | .other number _ => number

def reason : FileFault → String
  | .missing => "No such file or directory"
  | .isFolder => "Is a directory"
  | .notFolder => "Not a directory"
  | .longName => "File name too long"
  | .other _ reason => reason

def message (f : FileFault) (p : Path) : String :=
  s!"[Errno {f.number}] {f.reason}: {String.ofList (Text.quoted p.text.toList)}"

end Messages

end FileFault

structure Disk where
  files : List (List String × List UInt8)
  folders : List (List String)
  deriving DecidableEq, Repr

namespace Disk

/-- Where a walk stands: at some parts below the disk, or in a folder outside. -/
inductive Location where
  | inside (parts : List String)
  | outside
  deriving DecidableEq, Repr

inductive Entry where
  | file (bytes : List UInt8)
  | folder
  | nothing
  deriving DecidableEq, Repr

section Walking

/-- Whatever holds a file or a folder is a folder, and so is the disk itself. -/
def isFolder (d : Disk) (parts : List String) : Bool :=
  parts.isEmpty || d.folders.any (fun f => parts.isPrefixOf f) ||
    d.files.any fun f => parts.isPrefixOf f.1 && parts != f.1

def entry (d : Disk) : Location → Entry
  | .outside => .folder
  | .inside parts =>
      match d.files.lookup parts with
      | some bytes => .file bytes
      | none => if d.isFolder parts then .folder else .nothing

def nameLimit : Nat := 255

def parent : Location → Location
  | .outside => .outside
  | .inside [] => .outside
  | .inside parts => .inside parts.dropLast

/-- The location of a name in a folder; a folder outside has nothing that a name reaches. -/
def child (l : Location) (name : String) : Option Location :=
  if name = ".." then some (parent l)
  else
    match l with
    | .inside parts => some (.inside (parts ++ [name]))
    | .outside => none

/-- The location that a path leads to; `none` is a name outside that nothing has. -/
def locate (d : Disk) : Location → List String → Except FileFault (Option Location)
  | l, [] => .ok (some l)
  | l, name :: rest =>
      match d.entry l with
      | .nothing => .error .missing
      | .file _ => .error .notFolder
      | .folder =>
          if nameLimit < name.utf8ByteSize then .error .longName
          else
            match child l name with
            | some l => locate d l rest
            | none => if rest.isEmpty then .ok none else .error .missing

def start (p : Path) : Location := if p.root.isEmpty then .inside [] else .outside

def find (d : Disk) (p : Path) : Except FileFault (Option Location) := d.locate (start p) p.parts

end Walking

section Access

def read (d : Disk) (p : Path) : Except FileFault (List UInt8) :=
  match d.find p with
  | .error fault => .error fault
  | .ok none => .error .missing
  | .ok (some l) =>
      match d.entry l with
      | .file bytes => .ok bytes
      | .folder => .error .isFolder
      | .nothing => .error .missing

def obstacle (d : Disk) (p : Path) : Option FileFault :=
  match d.find p with
  | .error fault => some fault
  | .ok none => none
  | .ok (some l) => if d.entry l = .folder then some .isFolder else none

/-- A file written outside of the disk leaves the disk as it is. -/
def write (d : Disk) (p : Path) (bytes : List UInt8) : Disk :=
  match d.find p with
  | .ok (some (.inside parts)) =>
      { d with files := (parts, bytes) :: d.files.filter fun f => f.1 != parts }
  | _ => d

end Access

end Disk

end PromptCanvas
