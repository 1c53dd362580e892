import ProseSchema.Json.Basic

/-!
# Locations

Where in a document a value stands: the name of the root and the steps that lead to the value.
-/

namespace ProseSchema

inductive LocationStep
  | key (name : String)
  | index (i : Nat)
  deriving DecidableEq

namespace LocationStep

def text : LocationStep → String
  | key name => "." ++ name
  | index i => "[" ++ toString i ++ "]"

end LocationStep

structure Location where
  root : String
  steps : List LocationStep
  deriving DecidableEq

namespace Location

def ofRoot (root : String) : Location := ⟨root, []⟩

def key (place : Location) (name : String) : Location :=
  ⟨place.root, place.steps ++ [.key name]⟩

def index (place : Location) (i : Nat) : Location :=
  ⟨place.root, place.steps ++ [.index i]⟩

/-- The location as messages show it, for instance `Order.lines[2].price`. -/
def text (place : Location) : String :=
  place.root ++ String.join (place.steps.map LocationStep.text)

end Location

/-- The value that steps lead to. -/
def Json.at? : List LocationStep → Json → Option Json
  | [], value => some value
  | .key name :: steps, .object members => (members.lookup name).bind (Json.at? steps)
  | .index i :: steps, .array elements => elements[i]?.bind (Json.at? steps)
  | _, _ => none

end ProseSchema
