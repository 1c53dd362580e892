import ProseSchema.Json.Type
import ProseSchema.Json.Write
import ProseSchema.Literal
import ProseSchema.Location
import ProseSchema.Problem.Kind
import ProseSchema.Sentence.Basic

/-!
# Problems

What can be wrong with a document. A problem holds the values it is about; its kind and its arguments are
what a message is made from.
-/

namespace ProseSchema

/-- The type that a field was expected to have. -/
inductive ExpectedType
  | one (type : JsonType)
  | anyArray
  deriving DecidableEq

def ExpectedType.text : ExpectedType → String
  | .one type => type.token
  | .anyArray => "an Array"

inductive Problem
  | missingField (place : Location) (field : String)
  | missingFields (place : Location) (fields : List String)
  | forbiddenField (place : Location) (field : String)
  | nullValue (place : Location)
  | wrongType (place : Location) (actual : List JsonType) (expected : ExpectedType)
  | notListed (place : Location) (field : String) (value : Json) (allowed : List Literal)
  | outOfRange (place : Location) (field : String) (value : Json) (relation : Relation) (bound : Binary64)
  | severalFields (place : Location) (fields : List String)
  | emptyArray (place : Location) (field : String)
  | unknownField (field : String) (place : Location)
  | missingStart (target : String) (place : Location)
  | duplicateState (name : String) (place first : Location)
  | noSuchState (target : String) (place : Location) (field : String)
  | unreachableState (place : Location) (name : String)
  | noTerminalState (place : Location)
  | nullPath (field : String) (place : Location)
  | invalidPath (field : String) (place : Location)
  | invalidPayloadPath (key template : String) (place : Location)
  | invalidVariable (place : Location)
  | catchAllNotLast (place : Location) (index : Nat)

/-- A list of names as messages show it, for instance `["A", "B"]`. -/
def nameList (names : List String) : String :=
  "[" ++ ", ".intercalate (names.map fun name => "\"" ++ name ++ "\"") ++ "]"

def literalList (literals : List Literal) : String :=
  "[" ++ ", ".intercalate (literals.map Literal.text) ++ "]"

namespace Relation

def problemKind : Relation → ProblemKind
  | equalTo => .fieldValueEqual
  | greaterThan => .fieldValueFloor
  | greaterThanOrEqualTo => .fieldValueMin
  | lessThan => .fieldValueCeiling
  | lessThanOrEqualTo => .fieldValueMax

end Relation

namespace Problem

def kind : Problem → ProblemKind
  | missingField .. => .hasFieldSingle
  | missingFields .. => .hasFieldMultiple
  | forbiddenField .. => .doesNotHaveField
  | nullValue .. => .fieldTypeNull
  | wrongType .. => .fieldType
  | notListed .. => .fieldValueEnum
  | outOfRange _ _ _ relation _ => relation.problemKind
  | severalFields .. => .onlyOneOf
  | emptyArray .. => .nonEmptyArray
  | unknownField .. => .fieldNotAllowed
  | missingStart .. => .missingStartTarget
  | duplicateState .. => .duplicateStateName
  | noSuchState .. => .noSuchState
  | unreachableState .. => .unreachableState
  | noTerminalState .. => .noTerminalState
  | nullPath .. => .nullField
  | invalidPath .. => .invalidPathField
  | invalidPayloadPath .. => .invalidPayloadPath
  | invalidVariable .. => .invalidChoiceVariable
  | catchAllNotLast .. => .statesAllNotLast

/-- The arguments of a problem's message, in the order of its kind. -/
def args : Problem → List String
  | missingField place field => [place.text, field]
  | missingFields place fields => [place.text, nameList fields]
  | forbiddenField place field => [place.text, field]
  | nullValue place => [place.text]
  | wrongType place actual expected => [place.text, JsonType.describe actual, expected.text]
  | notListed place field value allowed => [place.text, field, value.text, literalList allowed]
  | outOfRange place field value _ bound =>
    [place.text, field, value.text, DecimalStyle.plain.write bound]
  | severalFields place fields => [place.text, nameList fields]
  | emptyArray place field => [place.text, field]
  | unknownField field place => [field, place.text]
  | missingStart target place => [target, place.text]
  | duplicateState name place first => [name, place.text, first.text]
  | noSuchState target place field => [target, place.text, field]
  | unreachableState place name => [place.text, name]
  | noTerminalState place => [place.text]
  | nullPath field place => [field, place.text]
  | invalidPath field place => [field, place.text]
  | invalidPayloadPath key template place => [key, template, place.text]
  | invalidVariable place => [place.text]
  | catchAllNotLast place index => [place.text, toString index]

end Problem

end ProseSchema
