/-!
# Kinds of problems
-/

namespace ProseSchema

/-- The kinds of problems that can be reported. -/
inductive ProblemKind
  | hasFieldSingle
  | hasFieldMultiple
  | doesNotHaveField
  | fieldTypeNull
  | fieldType
  | fieldValueEnum
  | fieldValueEqual
  | fieldValueFloor
  | fieldValueMin
  | fieldValueCeiling
  | fieldValueMax
  | onlyOneOf
  | nonEmptyArray
  | fieldNotAllowed
  | missingStartTarget
  | duplicateStateName
  | noSuchState
  | unreachableState
  | noTerminalState
  | nullField
  | invalidPathField
  | invalidPayloadPath
  | invalidChoiceVariable
  | statesAllNotLast
  deriving DecidableEq

namespace ProblemKind

def all : List ProblemKind :=
  [hasFieldSingle, hasFieldMultiple, doesNotHaveField, fieldTypeNull, fieldType, fieldValueEnum,
    fieldValueEqual, fieldValueFloor, fieldValueMin, fieldValueCeiling, fieldValueMax, onlyOneOf,
    nonEmptyArray, fieldNotAllowed, missingStartTarget, duplicateStateName, noSuchState,
    unreachableState, noTerminalState, nullField, invalidPathField, invalidPayloadPath,
    invalidChoiceVariable, statesAllNotLast]

/-- The name of a kind, as it stands in a catalog. -/
def name : ProblemKind → String
  | hasFieldSingle => "HasFieldSingle"
  | hasFieldMultiple => "HasFieldMultiple"
  | doesNotHaveField => "DoesNotHaveField"
  | fieldTypeNull => "FieldTypeNull"
  | fieldType => "FieldType"
  | fieldValueEnum => "FieldValueEnum"
  | fieldValueEqual => "FieldValueEqual"
  | fieldValueFloor => "FieldValueFloor"
  | fieldValueMin => "FieldValueMin"
  | fieldValueCeiling => "FieldValueCeiling"
  | fieldValueMax => "FieldValueMax"
  | onlyOneOf => "OnlyOneOf"
  | nonEmptyArray => "NonEmptyArray"
  | fieldNotAllowed => "FieldNotAllowed"
  | missingStartTarget => "MissingStartTarget"
  | duplicateStateName => "DuplicateStateName"
  | noSuchState => "NoSuchState"
  | unreachableState => "UnreachableState"
  | noTerminalState => "NoTerminalState"
  | nullField => "NullField"
  | invalidPathField => "InvalidPathField"
  | invalidPayloadPath => "InvalidPayloadPath"
  | invalidChoiceVariable => "InvalidChoiceVariable"
  | statesAllNotLast => "StatesAllNotLast"

def ofName? (name : String) : Option ProblemKind :=
  all.find? fun kind => kind.name = name

/-- The English message of a kind, with a number in braces where an argument goes. -/
def english : ProblemKind → String
  | hasFieldSingle => "\x7b0\x7d does not have required field \"\x7b1\x7d\"."
  | hasFieldMultiple => "\x7b0\x7d does not have required field from \x7b1\x7d."
  | doesNotHaveField => "\x7b0\x7d has forbidden field \"\x7b1\x7d\"."
  | fieldTypeNull => "\x7b0\x7d should be non-null."
  | fieldType => "\x7b0\x7d is of type \x7b1\x7d, should be \x7b2\x7d."
  | fieldValueEnum => "\x7b0\x7d.\x7b1\x7d is \x7b2\x7d, should be one of \x7b3\x7d."
  | fieldValueEqual => "\x7b0\x7d.\x7b1\x7d is \x7b2\x7d, should be equal to \x7b3\x7d."
  | fieldValueFloor => "\x7b0\x7d.\x7b1\x7d is \x7b2\x7d, should be greater than \x7b3\x7d."
  | fieldValueMin => "\x7b0\x7d.\x7b1\x7d is \x7b2\x7d, should be at least \x7b3\x7d."
  | fieldValueCeiling => "\x7b0\x7d.\x7b1\x7d is \x7b2\x7d, should be less than \x7b3\x7d."
  | fieldValueMax => "\x7b0\x7d.\x7b1\x7d is \x7b2\x7d, should be at most \x7b3\x7d."
  | onlyOneOf => "\x7b0\x7d may have only one of \x7b1\x7d."
  | nonEmptyArray => "\x7b0\x7d.\x7b1\x7d is an empty array."
  | fieldNotAllowed => "Field \"\x7b0\x7d\" not allowed in \x7b1\x7d."
  | missingStartTarget => "StartAt value \"\x7b0\x7d\" not found in States field at \x7b1\x7d."
  | duplicateStateName => "State \"\x7b0\x7d\", defined at \x7b1\x7d, is also defined at \x7b2\x7d."
  | noSuchState => "No state found named \"\x7b0\x7d\", referenced at \x7b1\x7d.\x7b2\x7d."
  | unreachableState => "No transition found to state \x7b0\x7d.States.\x7b1\x7d."
  | noTerminalState => "No terminal state found in machine at \x7b0\x7d.States."
  | nullField => "Field \"\x7b0\x7d\" defined at \x7b1\x7d should be non-null."
  | invalidPathField => "Field \"\x7b0\x7d\" defined at \x7b1\x7d is not a JSONPath."
  | invalidPayloadPath =>
    "Field \"\x7b0\x7d\" of \x7b1\x7d at \x7b2\x7d is not a JSONPath or intrinsic function expression."
  | invalidChoiceVariable => "\x7b0\x7d.Variable is not a JSONPath or intrinsic function expression."
  | statesAllNotLast =>
    "\x7b0\x7d[\x7b1\x7d]: States.ALL can only appear in the last element, and by itself."

end ProblemKind

end ProseSchema
