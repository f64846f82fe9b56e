import PromptCanvas.Canvas.Draft
import PromptCanvas.Workspace.Session

/-! # Request bodies

The operations that the bodies of requests ask for, or what in a body has not
the right shape. -/

set_option autoImplicit false

namespace PromptCanvas.Body

open Workspace (Operation)

section Shapes

def confirmed (j : Json) : Checked Bool :=
  .record j fun j => .withDefault j "confirm" false .truth

def importText (j : Json) : Checked Operation :=
  .record j fun j =>
    (Checked.both (.required j "text" .string) (.withDefault j "confirm" false .truth)).map
      fun (text, confirmed) => .importText text confirmed

def draw (j : Json) : Checked Operation := (confirmed j).map .draw

def mode (j : Json) : Checked LayoutMode := .ofOption j (j.string?.bind LayoutMode.ofName?)

def layout (j : Json) : Checked Operation :=
  .record j fun j =>
    (Checked.withDefault j "mode" .vertical mode).map fun mode => .layout (.string mode.name)

def add (j : Json) : Checked Operation :=
  .record j fun j =>
    (Checked.both (.required j "role" Canvas.readRole)
        (.withDefault j "position" .origin Canvas.readPosition)).map
      fun (role, position) => .add role position

/-- A label that is null or missing stays as it is. -/
def relabel (id : String) (j : Json) : Checked Operation :=
  .record j fun j =>
    (Checked.withDefault j "label" none (.nullable .string)).map fun label => .relabel id label

def relist (id : String) (j : Json) : Checked Operation :=
  .record j fun j =>
    (Checked.required j "items" fun items => .ofOption items items.array?).map
      fun items => .relist id items

def select (j : Json) : Checked Operation :=
  .record j fun j => (Checked.withDefault j "node_id" none (.nullable .string)).map .select

def connect (j : Json) : Checked Operation :=
  .record j fun j =>
    (Checked.both (.required j "source" .string) (.required j "target" .string)).map
      fun (source, target) => .connect source target

end Shapes

end PromptCanvas.Body
