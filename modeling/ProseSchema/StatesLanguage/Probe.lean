import ProseSchema.Path
import ProseSchema.Problem.Basic

/-!
# Checks within one state

The syntax of the paths in a state, of the payload templates and of the choice rules, and the place of a
handler that catches all errors.
-/

namespace ProseSchema.StatesLanguage

def isPayloadPathValue (value : Json) : Bool :=
  value.string?.any isPayloadPath

/-- May the value stand behind a key that ends in `.$`? -/
def isPayloadValue (value : Json) : Bool :=
  value.string?.any isIntrinsicCall || isPayloadPathValue value

/-- The fields that hold paths, and whether null may stand for one. -/
def pathFields : List (String × Bool) :=
  [("InputPath", true), ("OutputPath", true), ("ItemsPath", false)]

def templateFields : List String :=
  ["Parameters", "ResultSelector"]

def pathProblems (state : Json) (place : Location) (field : String) (nullable : Bool) : List Problem :=
  match state.get? field with
  | none => []
  | some .null => if nullable then [] else [.nullPath field place]
  | some value => if isPayloadPathValue value then [] else [.invalidPath field place]

/-- Does the key ask for a path or a call? -/
def isPayloadKey (key : String) : Bool :=
  ['$', '.'].isPrefixOf key.toList.reverse

mutual

/-- The problems of a payload template. The location of a problem leaves out the template's own field. -/
def templateProblems (template : String) (place : Location) : Json → List Problem
  | .object members => templateMemberProblems template place members
  | .array elements => templateElementProblems template place 0 elements
  | _ => []

def templateMemberProblems (template : String) (place : Location) : List (String × Json) → List Problem
  | [] => []
  | (key, value) :: members =>
    (if isPayloadKey key then
      if isPayloadValue value then [] else [.invalidPayloadPath key template place]
    else templateProblems template (place.key key) value) ++
    templateMemberProblems template place members

def templateElementProblems (template : String) (place : Location) : (start : Nat) → List Json →
    List Problem
  | _, [] => []
  | start, element :: elements =>
    templateProblems template (place.index start) element ++
    templateElementProblems template place (start + 1) elements

end

def variableProblems (members : List (String × Json)) (place : Location) : List Problem :=
  match members.lookup "Variable" with
  | some value => if isPayloadPathValue value then [] else [.invalidVariable place]
  | none => []

mutual

/-- The problems of the variables in choice rules and in the rules that their operators join. A value's
problems are listed with those of its operators in the order And, Or, Not. -/
def choiceProblems (place : Location) : Json → List Problem
  | .object members =>
    variableProblems members place ++
    operandProblems "And" place members ++
    operandProblems "Or" place members ++
    operandProblems "Not" place members
  | .array elements => choiceElementProblems place 0 elements
  | _ => []

def operandProblems (operator : String) (place : Location) : List (String × Json) → List Problem
  | [] => []
  | (key, value) :: members =>
    if key = operator then choiceProblems (place.key operator) value
    else operandProblems operator place members

def choiceElementProblems (place : Location) : (start : Nat) → List Json → List Problem
  | _, [] => []
  | start, element :: elements =>
    choiceProblems (place.index start) element ++ choiceElementProblems place (start + 1) elements

end

theorem operandProblems_eq_lookup (operator : String) (place : Location) (members : List (String × Json)) :
    operandProblems operator place members =
      ((members.lookup operator).map (choiceProblems (place.key operator))).getD [] := by
  induction members with
  | nil => rfl
  | cons member members ih =>
    obtain ⟨key, value⟩ := member
    rw [operandProblems, List.lookup_cons]
    by_cases h : key = operator
    · subst h
      simp
    · rw [if_neg h, beq_false_of_ne (Ne.symm h)]
      exact ih

def hasStateType (state : Json) (type : String) : Bool :=
  ((state.get? "Type").bind Json.string?) = some type

def stateProblems (state : Json) (place : Location) : List Problem :=
  pathFields.flatMap (fun field => pathProblems state place field.1 field.2) ++
  templateFields.flatMap (fun field =>
    ((state.get? field).map (templateProblems field place)).getD []) ++
  if hasStateType state "Choice" then
    ((state.get? "Choices").map (choiceProblems (place.key "Choices"))).getD []
  else []

/-- The errors that a handler names, if it lists any. -/
def handledErrors (handler : Json) : Option (List Json) :=
  (handler.get? "ErrorEquals").bind Json.array?

/-- Is this a handler for all errors that stands before another one, or names another error besides? -/
def isMisplaced (last : Bool) (handler : Json) : Bool :=
  (handledErrors handler).any fun errors =>
    errors.any (fun e => e.string? = some "States.ALL") && !(last && errors.length = 1)

/-- The index of the first misplaced handler, counted from `start`. -/
def misplacedFrom : (start : Nat) → List Json → Option Nat
  | _, [] => none
  | start, handler :: handlers =>
    if isMisplaced handlers.isEmpty handler then some start else misplacedFrom (start + 1) handlers

def handlerProblems (handlers : Json) (place : Location) : List Problem :=
  ((handlers.array?.bind (misplacedFrom 0)).map (.catchAllNotLast place ·)).toList

end ProseSchema.StatesLanguage
