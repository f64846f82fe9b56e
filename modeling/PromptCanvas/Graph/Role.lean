/-! # Roles

`Role`: who speaks in a step.  The first three may stand in an exported graph;
a condition exists on the canvas only. -/

set_option autoImplicit false

namespace PromptCanvas

inductive Role where
  | system
  | user
  | assistant
  | condition
  deriving DecidableEq, Repr

namespace Role

section Names

def all : List Role := [.system, .user, .assistant, .condition]

def name : Role → String
  | .system => "system"
  | .user => "user"
  | .assistant => "assistant"
  | .condition => "condition"

def heading : Role → String
  | .system => "SYSTEM"
  | .user => "USER"
  | .assistant => "ASSISTANT"
  | .condition => "CONDITION"

def label : Role → String
  | .system => "System"
  | .user => "User"
  | .assistant => "Assistant"
  | .condition => "Condition"

def hint : Role → String
  | .system => "Global rules and behavior"
  | .user => "User intent or inputs"
  | .assistant => "Assistant response template"
  | .condition => "Branching rule for next step"

def style : Role → String
  | .system => "bold magenta"
  | .user => "bold cyan"
  | .assistant => "bold green"
  | .condition => "bold yellow"

def ofName? (s : String) : Option Role := all.find? fun r => r.name == s

end Names

section Export

def isExported : Role → Bool
  | .condition => false
  | _ => true

def exported : List Role := all.filter isExported

def exportedOfName? (s : String) : Option Role := exported.find? fun r => r.name == s

end Export

end Role

end PromptCanvas
