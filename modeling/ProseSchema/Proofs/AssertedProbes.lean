import ProseSchema.Proofs.AssertedRules
import ProseSchema.StatesLanguage.Probe

/-!
# Checks within one state with asserted reading

The checks of paths, templates, choice rules and handlers once more, each value read by the accessor of the
type that it was found to have. No reading fails here, so the problems are those of the checks themselves.
-/

namespace ProseSchema

namespace Json

lemma asMembers_eq_ok {value : Json} {members : List (String × Json)}
    (h : value.asMembers = .ok members) : value = .object members := by
  cases value with
  | object found =>
    rw [asMembers_object] at h
    cases h
    rfl
  | _ => simp [asMembers, readAs, hasType] at h

lemma asElements_eq_ok {value : Json} {elements : List Json} (h : value.asElements = .ok elements) :
    value = .array elements := by
  cases value with
  | array found =>
    rw [asElements_array] at h
    cases h
    rfl
  | _ => simp [asElements, readAs, hasType] at h

lemma membersWeight_lt (members : List (String × Json)) :
    2 * membersWeight members < (Json.object members).weight := by
  unfold weight
  omega

lemma elementsWeight_lt (elements : List Json) :
    2 * elementsWeight elements < (Json.array elements).weight := by
  unfold weight
  omega

lemma weight_le_of_lookup {members : List (String × Json)} {name : String} {value : Json}
    (h : members.lookup name = some value) : value.weight ≤ membersWeight members := by
  induction members with
  | nil => simp at h
  | cons member members ih =>
    obtain ⟨key, inner⟩ := member
    rw [List.lookup_cons] at h
    unfold membersWeight
    cases hk : name == key with
    | true =>
      rw [hk] at h
      cases h
      omega
    | false =>
      rw [hk] at h
      have := ih h
      omega

end Json

namespace Asserted

open StatesLanguage

/-- The members of an object. Together they weigh less than half of it. -/
def membersOf (value : Json) :
    Except Fault { members : List (String × Json) // 2 * Json.membersWeight members < value.weight } :=
  match h : value.asMembers with
  | .ok members => return ⟨members, Json.asMembers_eq_ok h ▸ Json.membersWeight_lt members⟩
  | .error misuse => throw (.misuse misuse)

/-- The elements of an array. Together they weigh less than half of it. -/
def elementsOf (value : Json) :
    Except Fault { elements : List Json // 2 * Json.elementsWeight elements < value.weight } :=
  match h : value.asElements with
  | .ok elements => return ⟨elements, Json.asElements_eq_ok h ▸ Json.elementsWeight_lt elements⟩
  | .error misuse => throw (.misuse misuse)

lemma membersOf_object (members : List (String × Json)) :
    membersOf (.object members) = .ok ⟨members, Json.membersWeight_lt members⟩ :=
  rfl

lemma elementsOf_array (elements : List Json) :
    elementsOf (.array elements) = .ok ⟨elements, Json.elementsWeight_lt elements⟩ :=
  rfl

/-- The text of a field, where the field holds a text. -/
def text? (node : Json) (field : String) : Except Fault (Option String) :=
  match (node.get? field).filter (·.hasType .string) with
  | some value => return some (← read value.asString)
  | none => return none

def isPathText (value : Json) : Except Fault Bool :=
  if value.hasType .string then return isPayloadPath (← read value.asString) else return false

def isCallText (value : Json) : Except Fault Bool :=
  if value.hasType .string then return isIntrinsicCall (← read value.asString) else return false

def pathProblems (state : Json) (place : Location) (field : String) (nullable : Bool) :
    Except Fault (List Problem) :=
  match state.get? field with
  | none => return []
  | some value =>
    if value.isNull then return if nullable then [] else [.nullPath field place]
    else return if ← isPathText value then [] else [.invalidPath field place]

def payloadProblems (key template : String) (place : Location) (value : Json) :
    Except Fault (List Problem) := do
  let call ← isCallText value
  let path ← isPathText value
  return if !call && !path then [.invalidPayloadPath key template place] else []

def variableProblems (node : Json) (place : Location) : Except Fault (List Problem) :=
  match node.get? "Variable" with
  | some value => return if ← isPathText value then [] else [.invalidVariable place]
  | none => return []

lemma text?_eq (node : Json) (field : String) :
    text? node field = .ok ((node.get? field).bind Json.string?) := by
  unfold text?
  cases node.get? field with
  | none => rfl
  | some value => cases value <;> rfl

lemma isPathText_eq (value : Json) : isPathText value = .ok (isPayloadPathValue value) := by
  cases value <;> rfl

lemma isCallText_eq (value : Json) : isCallText value = .ok (value.string?.any isIntrinsicCall) := by
  cases value <;> rfl

lemma pathProblems_eq (state : Json) (place : Location) (field : String) (nullable : Bool) :
    pathProblems state place field nullable =
      .ok (StatesLanguage.pathProblems state place field nullable) := by
  unfold pathProblems StatesLanguage.pathProblems
  cases state.get? field with
  | none => rfl
  | some value => cases value <;> rfl

lemma payloadProblems_eq (key template : String) (place : Location) (value : Json) :
    payloadProblems key template place value =
      .ok (if isPayloadValue value then [] else [.invalidPayloadPath key template place]) := by
  rw [payloadProblems, isCallText_eq, isPathText_eq, isPayloadValue]
  generalize value.string?.any isIntrinsicCall = call
  generalize isPayloadPathValue value = path
  cases call <;> cases path <;> rfl

lemma variableProblems_eq (members : List (String × Json)) (place : Location) :
    variableProblems (.object members) place = .ok (StatesLanguage.variableProblems members place) := by
  rw [variableProblems, StatesLanguage.variableProblems, Json.get?]
  cases members.lookup "Variable" with
  | none => rfl
  | some value =>
    simp only [isPathText_eq]
    rfl

mutual

def templateProblems (template : String) (place : Location) (value : Json) : Except Fault (List Problem) :=
  if value.hasType .object then do
    let ⟨members, _⟩ ← membersOf value
    templateMemberProblems template place members
  else if value.hasType .array then do
    let ⟨elements, _⟩ ← elementsOf value
    templateElementProblems template place 0 elements
  else return []
termination_by value.weight

def templateMemberProblems (template : String) (place : Location) (members : List (String × Json)) :
    Except Fault (List Problem) :=
  match members with
  | [] => return []
  | (key, value) :: members => do
    let found ← if isPayloadKey key then payloadProblems key template place value
      else templateProblems template (place.key key) value
    return found ++ (← templateMemberProblems template place members)
termination_by 2 * Json.membersWeight members
decreasing_by
  all_goals
    have := value.weight_pos
    rw [Json.membersWeight]
    omega

def templateElementProblems (template : String) (place : Location) (start : Nat) (elements : List Json) :
    Except Fault (List Problem) :=
  match elements with
  | [] => return []
  | element :: elements => do
    let found ← templateProblems template (place.index start) element
    return found ++ (← templateElementProblems template place (start + 1) elements)
termination_by 2 * Json.elementsWeight elements
decreasing_by
  all_goals
    have := element.weight_pos
    rw [Json.elementsWeight]
    omega

end

mutual

theorem templateProblems_eq (template : String) (place : Location) (value : Json) :
    templateProblems template place value =
      .ok (StatesLanguage.templateProblems template place value) := by
  match value with
  | .object members =>
    rw [templateProblems, if_pos ((Json.hasType_object_iff _).mpr ⟨members, rfl⟩), membersOf_object]
    exact templateMemberProblems_eq template place members
  | .array elements =>
    rw [templateProblems, if_neg (by simp [Json.hasType]),
      if_pos ((Json.hasType_array_iff _).mpr ⟨elements, rfl⟩), elementsOf_array]
    exact templateElementProblems_eq template place 0 elements
  | .null | .bool _ | .number _ | .string _ =>
    unfold templateProblems
    rfl

theorem templateMemberProblems_eq (template : String) (place : Location)
    (members : List (String × Json)) :
    templateMemberProblems template place members =
      .ok (StatesLanguage.templateMemberProblems template place members) := by
  match members with
  | [] =>
    unfold templateMemberProblems
    rfl
  | (key, value) :: members =>
    unfold templateMemberProblems StatesLanguage.templateMemberProblems
    rw [templateMemberProblems_eq template place members, templateProblems_eq template _ value,
      payloadProblems_eq]
    split <;> rfl

theorem templateElementProblems_eq (template : String) (place : Location) (start : Nat)
    (elements : List Json) :
    templateElementProblems template place start elements =
      .ok (StatesLanguage.templateElementProblems template place start elements) := by
  match elements with
  | [] =>
    unfold templateElementProblems
    rfl
  | element :: elements =>
    rw [templateElementProblems, templateProblems_eq template _ element,
      templateElementProblems_eq template place _ elements]
    rfl

end

lemma weight_lt_of_get? {value nested : Json} {name : String} (h : value.get? name = some nested) :
    nested.weight < value.weight := by
  cases value with
  | object members =>
    have := Json.weight_le_of_lookup h
    rw [Json.weight]
    omega
  | _ => simp [Json.get?] at h

mutual

def choiceProblems (place : Location) (value : Json) : Except Fault (List Problem) :=
  if value.hasType .object then do
    let own ← variableProblems value place
    let all ← operandProblems "And" place value
    let any ← operandProblems "Or" place value
    return own ++ all ++ any ++ (← operandProblems "Not" place value)
  else if value.hasType .array then do
    let ⟨elements, _⟩ ← elementsOf value
    choiceElementProblems place 0 elements
  else return []
termination_by 2 * value.weight
decreasing_by
  · have := value.weight_pos
    omega
  · have := value.weight_pos
    omega
  · have := value.weight_pos
    omega
  · omega

def operandProblems (operator : String) (place : Location) (value : Json) : Except Fault (List Problem) :=
  match _h : value.get? operator with
  | some nested => choiceProblems (place.key operator) nested
  | none => return []
termination_by 2 * value.weight - 1
decreasing_by
  have := weight_lt_of_get? _h
  omega

def choiceElementProblems (place : Location) (start : Nat) (elements : List Json) :
    Except Fault (List Problem) :=
  match elements with
  | [] => return []
  | element :: elements => do
    let found ← choiceProblems (place.index start) element
    return found ++ (← choiceElementProblems place (start + 1) elements)
termination_by 2 * Json.elementsWeight elements + 1
decreasing_by
  all_goals
    have := element.weight_pos
    rw [Json.elementsWeight]
    omega

end

mutual

theorem choiceProblems_eq (place : Location) (value : Json) :
    choiceProblems place value = .ok (StatesLanguage.choiceProblems place value) := by
  match value with
  | .object members =>
    have ho (operator : String) : operandProblems operator place (.object members) =
        .ok (StatesLanguage.operandProblems operator place members) := by
      rw [operandProblems, StatesLanguage.operandProblems_eq_lookup]
      split
      · next nested h =>
        rw [choiceProblems_eq _ nested]
        rw [Json.get?] at h
        rw [h]
        rfl
      · next h =>
        rw [Json.get?] at h
        rw [h]
        rfl
    rw [choiceProblems, if_pos ((Json.hasType_object_iff _).mpr ⟨members, rfl⟩), variableProblems_eq,
      ho, ho, ho, StatesLanguage.choiceProblems]
    rfl
  | .array elements =>
    rw [choiceProblems, if_neg (by simp [Json.hasType]),
      if_pos ((Json.hasType_array_iff _).mpr ⟨elements, rfl⟩), elementsOf_array]
    exact choiceElementProblems_eq place 0 elements
  | .null | .bool _ | .number _ | .string _ =>
    unfold choiceProblems
    rfl
termination_by value.weight
decreasing_by
  · exact weight_lt_of_get? ‹_›
  · rw [Json.weight]
    omega

theorem choiceElementProblems_eq (place : Location) (start : Nat) (elements : List Json) :
    choiceElementProblems place start elements =
      .ok (StatesLanguage.choiceElementProblems place start elements) := by
  match elements with
  | [] =>
    unfold choiceElementProblems
    rfl
  | element :: elements =>
    rw [choiceElementProblems, choiceProblems_eq _ element, choiceElementProblems_eq place _ elements]
    rfl
termination_by 2 * Json.elementsWeight elements
decreasing_by
  all_goals
    have := element.weight_pos
    rw [Json.elementsWeight]
    omega

end

def probeField (probe : Json → Except Fault (List Problem)) (node : Json) (field : String) :
    Except Fault (List Problem) :=
  match node.get? field with
  | some value => probe value
  | none => return []

def hasStateType (state : Json) (type : String) : Except Fault Bool :=
  return (← text? state "Type") = some type

def choicesProblems (state : Json) (place : Location) : Except Fault (List Problem) := do
  if ← hasStateType state "Choice" then
    probeField (choiceProblems (place.key "Choices")) state "Choices"
  else return []

def stateProblems (state : Json) (place : Location) : Except Fault (List Problem) := do
  let paths ← pathFields.flatMapM fun field => pathProblems state place field.1 field.2
  let templates ← templateFields.flatMapM fun field =>
    probeField (templateProblems field place) state field
  return paths ++ templates ++ (← choicesProblems state place)

def isAllErrors (error : Json) : Except Fault Bool :=
  if error.hasType .string then return (← read error.asString) = "States.ALL" else return false

def isMisplaced (isLast : Bool) (handler : Json) : Except Fault Bool :=
  match (handler.get? "ErrorEquals").filter (·.hasType .array) with
  | some errors => do
    let ⟨elements, _⟩ ← elementsOf errors
    let all ← elements.anyM isAllErrors
    return all && (!isLast || (← read errors.length) ≠ 1)
  | none => return false

/-- The index of the first misplaced handler, counted from `start`; the last one has the index `last`. -/
def misplacedFrom (last start : Nat) : List Json → Except Fault (Option Nat)
  | [] => return none
  | handler :: handlers => do
    if ← isMisplaced (start = last) handler then return some start
    else misplacedFrom last (start + 1) handlers

def handlerProblems (handlers : Json) (place : Location) : Except Fault (List Problem) :=
  if handlers.hasType .array then do
    let last := (← read handlers.length) - 1
    let ⟨elements, _⟩ ← elementsOf handlers
    let found ← misplacedFrom last 0 elements
    return (found.map (.catchAllNotLast place ·)).toList
  else return []

lemma probeField_eq {probe : Json → Except Fault (List Problem)} {found : Json → List Problem}
    (h : ∀ value, probe value = .ok (found value)) (node : Json) (field : String) :
    probeField probe node field = .ok (((node.get? field).map found).getD []) := by
  unfold probeField
  cases node.get? field with
  | some value => exact h value
  | none => rfl

lemma hasStateType_eq (state : Json) (type : String) :
    hasStateType state type = .ok (StatesLanguage.hasStateType state type) := by
  rw [hasStateType, text?_eq]
  rfl

lemma choicesProblems_eq (state : Json) (place : Location) :
    choicesProblems state place = .ok (if StatesLanguage.hasStateType state "Choice" then
      ((state.get? "Choices").map (StatesLanguage.choiceProblems (place.key "Choices"))).getD []
      else []) := by
  rw [choicesProblems, hasStateType_eq, probeField_eq (choiceProblems_eq _)]
  cases StatesLanguage.hasStateType state "Choice" <;> rfl

lemma stateProblems_eq (state : Json) (place : Location) :
    stateProblems state place = .ok (StatesLanguage.stateProblems state place) := by
  have hp (field : String × Bool) := pathProblems_eq state place field.1 field.2
  have ht (field : String) := probeField_eq (templateProblems_eq field place) state field
  rw [stateProblems, flatMapM_eq hp, flatMapM_eq ht, choicesProblems_eq]
  rfl

lemma isAllErrors_eq (error : Json) :
    isAllErrors error = pure (decide (error.string? = some "States.ALL")) := by
  cases error with
  | string text =>
    rw [isAllErrors, if_pos ((Json.hasType_string_iff _).mpr ⟨text, rfl⟩), Json.asString_string]
    simp only [Json.string?, Option.some.injEq]
    rfl
  | _ => rfl

lemma isMisplaced_eq (isLast : Bool) (handler : Json) :
    isMisplaced isLast handler = .ok (StatesLanguage.isMisplaced isLast handler) := by
  unfold isMisplaced StatesLanguage.isMisplaced handledErrors
  cases handler.get? "ErrorEquals" with
  | none => rfl
  | some errors =>
    cases errors with
    | array elements =>
      change (do
        let all ← elements.anyM isAllErrors
        return all && (!isLast || decide (elements.length ≠ 1))) =
          .ok (elements.any (fun e => e.string? = some "States.ALL") &&
            !(isLast && decide (elements.length = 1)))
      rw [funext isAllErrors_eq, List.anyM_pure, Bool.not_and, decide_not]
      rfl
    | _ => rfl

lemma misplacedFrom_eq (last start : Nat) (handlers : List Json) (h : last = start + handlers.length - 1) :
    misplacedFrom last start handlers = .ok (StatesLanguage.misplacedFrom start handlers) := by
  induction handlers generalizing start with
  | nil => rfl
  | cons handler handlers ih =>
    have hl : decide (start = last) = handlers.isEmpty := by
      rw [h, List.length_cons]
      cases handlers <;> simp
    rw [misplacedFrom, StatesLanguage.misplacedFrom, isMisplaced_eq, hl,
      ih (start + 1) (by rw [h, List.length_cons]; omega)]
    cases StatesLanguage.isMisplaced handlers.isEmpty handler <;> rfl

lemma handlerProblems_eq (handlers : Json) (place : Location) :
    handlerProblems handlers place = .ok (StatesLanguage.handlerProblems handlers place) := by
  cases handlers with
  | array elements =>
    change (do
      let found ← misplacedFrom (elements.length - 1) 0 elements
      return (found.map (Problem.catchAllNotLast place ·)).toList) = _
    rw [misplacedFrom_eq _ _ _ (by omega)]
    rfl
  | _ => rfl

end Asserted

end ProseSchema
