import PromptCanvas.Graph.Role
import PromptCanvas.Json.Printer

/-! # The generation contract

What a model is told before it is asked for a graph: the schema of the answer,
an example of its shape, the rules for its content, and the instruction that
holds them. -/

set_option autoImplicit false

namespace PromptCanvas.Contract

section Schema

def typed (name : String) : Json := .object [("type", .string name)]

def arrayOf (items : Json) : Json := .object [("type", .string "array"), ("items", items)]

/-- An object with these properties, all of them required, and no others. -/
def closed (properties : List (String × Json)) : Json :=
  .object
    [("type", .string "object"), ("additionalProperties", .bool false),
      ("properties", .object properties),
      ("required", .array (properties.map fun p => .string p.1))]

def roleNames : List Json := Role.exported.map fun r => .string r.name

def nodeSchema : Json :=
  closed
    [("id", typed "string"), ("role", .object [("type", .string "string"), ("enum", .array roleNames)]),
      ("label", typed "string"), ("content", typed "string")]

def edgeSchema : Json := closed [("from", typed "string"), ("to", typed "string")]

def schema : Json := closed [("nodes", arrayOf nodeSchema), ("edges", arrayOf edgeSchema)]

end Schema

section Instruction

/-- The shape of an answer, with the name of a type in place of each value. -/
def exampleGraph : Json :=
  .object
    [("nodes", .array [.object
        [("id", .string "string"), ("role", .string "system | user | assistant"),
          ("label", .string "string"), ("content", .string "string")]]),
      ("edges", .array [.object [("from", .string "string"), ("to", .string "string")]])]

def rules : List String :=
  ["Each node must have a unique id.",
    "Edges must reference valid node ids.",
    "The flow must be sequential unless branching is explicitly requested.",
    "Do not create empty content nodes unless explicitly required.",
    "Preserve logical order of conversation.",
    "Ensure the graph is a valid directed flow (no orphan nodes)."]

def instruction : String :=
  "\n".intercalate
    (["You are an assistant that converts instructions into prompt-flow JSON.",
        "Return JSON only. No markdown.",
        "Schema:",
        exampleGraph.render ⟨some 2, true⟩,
        "Rules:"] ++
      rules.mapIdx fun i rule => s!"{i + 1}. {rule}")

def answerType : String := "application/json"

def defaultModel : String := "gemini-flash-latest"

end Instruction

end PromptCanvas.Contract
