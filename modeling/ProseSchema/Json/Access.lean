import ProseSchema.Json.Type
import ProseSchema.Text.Quoted

/-!
# Typed access

Reading a value as one of its types. Whoever asks for a type that the value does not have has made a
mistake, which is told apart from a problem of the document.
-/

namespace ProseSchema

/-- A request that a value cannot answer. -/
inductive Misuse
  /-- The value has the type, and yet nothing can be read from it. -/
  | nothingRead (type : JsonType)
  | wrongType (actual : List JsonType) (wanted : JsonType)
  | noField (name : String)
  | notContainer
  deriving DecidableEq

def Misuse.message : Misuse → String
  | .nothingRead type => "unreachable: " ++ type.token ++ " node without such a value"
  | .wrongType actual wanted =>
    "unreachable: node typed " ++ JsonType.describe actual ++ " read as " ++ wanted.token
  | .noField name => "unreachable: node has no field named " ++ quoteName name
  | .notContainer => "unreachable: length of a node that is not a container"

namespace Json

/-- What `read` finds, given that the value has the type. -/
def readAs {α : Type} (type : JsonType) (read : Json → Option α) (value : Json) : Except Misuse α :=
  if value.hasType type then
    match read value with
    | some a => .ok a
    | none => .error (.nothingRead type)
  else .error (.wrongType value.types type)

def asString : Json → Except Misuse String :=
  readAs .string string?

def asBinary64 : Json → Except Misuse Binary64 :=
  readAs .numeric number?

/-- A whole number as an integer of 64 bits. -/
def asInt64 : Json → Except Misuse Int :=
  readAs .integer fun
    | .number n => some n.toInt64
    | _ => none

def asBool : Json → Except Misuse Bool :=
  readAs .boolean fun
    | .bool b => some b
    | _ => none

def asTimestamp : Json → Except Misuse Timestamp :=
  readAs .timestamp fun value => value.string? >>= Timestamp.parse?

def asMembers : Json → Except Misuse (List (String × Json)) :=
  readAs .object object?

def asElements : Json → Except Misuse (List Json) :=
  readAs .array array?

def keys (value : Json) : Except Misuse (List String) :=
  (·.map Prod.fst) <$> value.asMembers

/-- A field that the object is known to have. -/
def field (name : String) (value : Json) : Except Misuse Json := do
  let members ← value.asMembers
  match members.lookup name with
  | some found => .ok found
  | none => .error (.noField name)

def length : Json → Except Misuse Nat
  | .array elements => .ok elements.length
  | .object members => .ok members.length
  | _ => .error .notContainer

end Json

end ProseSchema
