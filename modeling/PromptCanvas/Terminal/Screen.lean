/-! # What a terminal shows

`Shown`: a line, a panel, a code block or a table, as a console is handed it.  A line,
the titles and the cells of a table may hold style tags in square brackets; what they look
like, and whether they are tags at all, is up to the `Console`. -/

set_option autoImplicit false

namespace PromptCanvas.Terminal

inductive Shown where
  | line (markup : String)
  | panel (text title subtitle : String)
  | code (text : String)
  | table (title : String) (columns : List String) (rows : List (List String))
  deriving DecidableEq, Repr

section Controls

/-- The characters that ring a bell or move the cursor within a line or off it. -/
def controls : List Char := ['\x07', '\x08', '\x0b', '\x0c', '\r']

def withoutControls (s : String) : String :=
  String.ofList (s.toList.filter fun c => !controls.contains c)

end Controls

section Markup

def styled (style text : String) : String := s!"[{style}]{text}[/{style}]"

def tagged (style text : String) : String := s!"[{style}]{text}[/]"

end Markup

section Consoles

structure ConsoleFault where
  kind : String
  message : String
  deriving DecidableEq, Repr

/-- A console shows an item or faults at it. -/
abbrev Console := Shown → Option ConsoleFault

end Consoles

end PromptCanvas.Terminal
