import PromptCanvas.Json.Basic
import PromptCanvas.Text.Surrogate

/-! # Standard JSON

Standard JSON has finite numbers only.  `isStandard` tells whether a value holds
no others, and `standardized` puts null in the place of each of them.  `isEncodable`
tells whether no name and no text in a value has a surrogate. -/

set_option autoImplicit false

namespace PromptCanvas.Json

section Standard

mutual

def isStandard : Json → Bool
  | .float (.finite _ _) => true
  | .float _ => false
  | .array items => areStandard items
  | .object fields => haveStandard fields
  | _ => true

def areStandard : List Json → Bool
  | [] => true
  | item :: items => isStandard item && areStandard items

def haveStandard : List (String × Json) → Bool
  | [] => true
  | (_, value) :: fields => isStandard value && haveStandard fields

end

mutual

def standardized : Json → Json
  | .float (.finite negative magnitude) => .float (.finite negative magnitude)
  | .float _ => .null
  | .array items => .array (standardizedItems items)
  | .object fields => .object (standardizedFields fields)
  | j => j

def standardizedItems : List Json → List Json
  | [] => []
  | item :: items => standardized item :: standardizedItems items

def standardizedFields : List (String × Json) → List (String × Json)
  | [] => []
  | (key, value) :: fields => (key, standardized value) :: standardizedFields fields

end

end Standard

section Encodable

mutual

def isEncodable : Json → Bool
  | .string s => Text.isEncodable s.toList
  | .array items => areEncodable items
  | .object fields => haveEncodable fields
  | _ => true

def areEncodable : List Json → Bool
  | [] => true
  | item :: items => isEncodable item && areEncodable items

def haveEncodable : List (String × Json) → Bool
  | [] => true
  | (key, value) :: fields =>
      Text.isEncodable key.toList && isEncodable value && haveEncodable fields

end

end Encodable

end PromptCanvas.Json
