import ProseSchema.Json.Basic
import ProseSchema.Path
import ProseSchema.Timestamp

/-!
# Types of JSON values

A value can have several types at once: every number is numeric and a float, a whole one is an integer
too, and a string may besides be a path, a reference path, a timestamp or a URI. Null has none.
-/

namespace ProseSchema

inductive JsonType
  | object
  | array
  | string
  | integer
  | float
  | boolean
  | numeric
  | jsonPath
  | referencePath
  | timestamp
  | uri
  deriving DecidableEq

namespace JsonType

def all : List JsonType :=
  [object, array, string, integer, float, boolean, numeric, jsonPath, referencePath, timestamp, uri]

/-- The word for a type in rules and in messages. -/
def token : JsonType → String
  | object => "object"
  | array => "array"
  | string => "string"
  | integer => "integer"
  | float => "float"
  | boolean => "boolean"
  | numeric => "numeric"
  | jsonPath => "JSONPath"
  | referencePath => "referencePath"
  | timestamp => "timestamp"
  | uri => "URI"

def ofToken? (word : String) : Option JsonType :=
  all.find? fun type => type.token = word

/-- A list of types as messages show it, for instance `[string, URI]`. -/
def describe (types : List JsonType) : String :=
  "[" ++ ", ".intercalate (types.map token) ++ "]"

end JsonType

/-- Characters of a URI scheme after its first letter. -/
def isSchemeChar (c : Char) : Bool :=
  ('A' ≤ c && c ≤ 'Z') || ('a' ≤ c && c ≤ 'z') || ('0' ≤ c && c ≤ '9') ||
    c == '+' || c == '.' || c == '-'

/-- Does the text start with a scheme and a colon? -/
def hasScheme (text : String) : Bool :=
  match text.toList with
  | [] => false
  | c :: rest =>
    (('A' ≤ c && c ≤ 'Z') || ('a' ≤ c && c ≤ 'z')) && (rest.dropWhile isSchemeChar).head? == some ':'

namespace Json

def hasType (type : JsonType) : Json → Bool
  | .null => false
  | .bool _ => type = .boolean
  | .number n =>
    match type with
    | .float | .numeric => true
    | .integer => n.isWhole
    | _ => false
  | .string text =>
    match type with
    | .string => true
    | .jsonPath => isPath text
    | .referencePath => isReferencePath text
    | .timestamp => (Timestamp.parse? text).isSome
    | .uri => hasScheme text
    | _ => false
  | .array _ => type = .array
  | .object _ => type = .object

def types (value : Json) : List JsonType :=
  JsonType.all.filter fun type => value.hasType type

end Json

end ProseSchema
