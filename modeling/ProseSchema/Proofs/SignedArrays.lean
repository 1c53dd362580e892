import Mathlib.Data.List.Infix
import ProseSchema.Proofs.SentenceMeaning
import ProseSchema.Validator

/-!
# Signs of arrays

A sign in front of the type of an array bounds the value of the field, which is the array and no number. Main
statement: the elements of the array are checked for their type and never for their sign, and the constraints
of the type phrase report just what those of the phrase without the sign report.
-/

namespace ProseSchema

namespace TypePhrase

def unsigned (phrase : TypePhrase) : TypePhrase :=
  { phrase with base := .plain phrase.base.toJsonType }

/-- The problems that the requirements of the phrase have with a node. -/
def problems (phrase : TypePhrase) (field : String) (node : Json) (place : Location) : List Problem :=
  (phrase.requirements field).flatMap fun r => r.problems node place

variable {nullable nonempty : Bool} {base : BaseType} {field : String} {node : Json} {elements : List Json}

/-- A bound says nothing of a field that holds an array. -/
lemma fieldRange_problems_array (range : Range) (hv : node.get? field = some (.array elements)) (place : Location) :
    (Requirement.fieldRange field range).problems node place = [] := by
  simp [Requirement.problems, hv, Requirement.rangeProblems]

lemma problems_unsigned (hv : node.get? field = some (.array elements)) (place : Location) :
    problems ⟨nullable, .array nonempty, base⟩ field node place =
      problems (unsigned ⟨nullable, .array nonempty, base⟩) field node place := by
  cases base with
  | plain type => rfl
  | signed sign type =>
    simp only [problems, requirements, unsigned, BaseType.sign?, BaseType.toJsonType, List.flatMap_append,
      List.flatMap_singleton, List.flatMap_nil, fieldRange_problems_array sign.range hv]

/-- Of an array only the types of its elements count, and that it has one where the phrase asks for it. -/
lemma problems_array_eq_nil_iff (hv : node.get? field = some (.array elements)) (place : Location) :
    problems ⟨nullable, .array nonempty, base⟩ field node place = [] ↔
      (∀ element ∈ elements, element.hasType base.toJsonType = true) ∧ (nonempty = true → elements ≠ []) := by
  have hs : (BaseType.plain base.toJsonType).sign? = none := rfl
  have hm := satisfied_array_iff nullable nonempty hs field node
  rw [problems_unsigned hv, problems, List.flatMap_eq_nil_iff]
  simp only [Requirement.problems_eq_nil_iff]
  refine hm.trans ?_
  simp only [hv, Option.some.injEq, forall_eq', Admits, BaseType.toJsonType]
  constructor
  · rintro (⟨hn, -⟩ | ⟨-, others, ho, hne, ht⟩)
    · exact absurd hn (by simp)
    · obtain rfl := Json.array.inj ho
      exact ⟨ht, hne⟩
  · rintro ⟨ht, hne⟩
    exact .inr ⟨by simp, elements, rfl, hne, ht⟩

end TypePhrase

namespace ConstraintSentence

/-- The constraints that a sentence enters for the type of a field. -/
def typeConstraints (s : ConstraintSentence) (field : String) : List Constraint :=
  (s.type.toList.flatMap (·.requirements field)).map fun r => (Constraint.of r).exclude s.excluded

variable {s : ConstraintSentence} {line : Nat}

/-- The requirements of the type of a field stand together among all that is required. -/
lemma typeRequirements_among {rs : List Requirement} (h : s.requirements line = .ok rs) {field : String}
    (hf : field ∈ s.fields.names) : s.type.toList.flatMap (·.requirements field) <:+: rs := by
  cases hm : s.fields.names.mapM (s.fieldRequirements line) with
  | error e => simp [requirements, hm, bind, Except.bind] at h
  | ok ofFields =>
    obtain rfl : ofFields.flatten ++ s.modalRequirements = rs := by
      simpa [requirements, hm, bind, Except.bind, pure, Except.pure] using h
    obtain ⟨ofField, hmem, hr⟩ := mem_of_mapM hm hf
    obtain ⟨bounds, types, rfl, -, -, hsome, hnone⟩ := fieldRequirements_eq_ok hr
    have ht : s.type.toList.flatMap (·.requirements field) = types := by
      cases htype : s.type with
      | none => simp [hnone htype]
      | some phrase => simp [hsome phrase htype]
    rw [ht]
    calc types <:+: bounds ++ types := (List.suffix_append bounds types).isInfix
      _ <:+: ofFields.flatten := List.infix_of_mem_flatten hmem
      _ <:+: ofFields.flatten ++ s.modalRequirements := (List.prefix_append _ _).isInfix

lemma typeConstraints_among {t after : RuleTables} {roles : List String}
    (h : s.enter line t = (.ok roles, after)) {field : String} (hf : field ∈ s.fields.names) :
    s.typeConstraints field <:+: after.constraintsOf s.role := by
  cases hr : s.requirements line with
  | error e => simp [enter, hr] at h
  | ok rs =>
    obtain ⟨_, rfl⟩ : s.newRoles = roles ∧ t.insertAll (s.entriesFor rs) = after := by
      simpa [enter, hr] using h
    rw [constraintsOf_entriesFor, if_pos rfl]
    exact ((typeRequirements_among hr hf).map _).trans (List.suffix_append _ _).isInfix

lemma flatMap_typeConstraints {phrase : TypePhrase} (hs : s.type = some phrase) (field : String) (node : Json)
    (place : Location) : ((s.typeConstraints field).flatMap fun c => c.requirement.problems node place) =
      phrase.problems field node place := by
  simp only [typeConstraints, hs, Option.toList_some, List.flatMap_singleton, List.flatMap_map,
    exclude_requirement, TypePhrase.problems]

/-- Where a sentence puts a sign on the values of an array, the constraints that it enters for the type report
something of an array exactly when an element is not of the type behind the sign, or when there has to be an
element and there is none. They report what they would report without the sign. -/
theorem enter_ignores_sign_of_array {t after : RuleTables} {roles : List String}
    (h : s.enter line t = (.ok roles, after)) {nullable nonempty : Bool} {sign : Sign} {type : NumberType}
    (hs : s.type = some ⟨nullable, .array nonempty, .signed sign type⟩) {field : String}
    (hf : field ∈ s.fields.names) :
    s.typeConstraints field <:+: after.constraintsOf s.role ∧
    ∀ members elements, members.lookup field = some (.array elements) → ∀ place,
      let found := (s.typeConstraints field).flatMap fun c => c.requirement.problems (.object members) place
      (found = [] ↔ (∀ element ∈ elements, element.hasType type.toJsonType = true) ∧
        (nonempty = true → elements ≠ [])) ∧
      found = TypePhrase.problems ⟨nullable, .array nonempty, .plain type.toJsonType⟩ field (.object members) place := by
  refine ⟨typeConstraints_among h hf, fun members elements hv place => ?_⟩
  have hv' : Json.get? field (.object members) = some (.array elements) := hv
  rw [flatMap_typeConstraints hs]
  exact ⟨TypePhrase.problems_array_eq_nil_iff hv' place, TypePhrase.problems_unsigned hv' place⟩

/-- `A Reading MUST have a nonempty-positive-integer-array field named "values".` -/
def readingSentence : ConstraintSentence where
  role := "Reading"
  excluded := []
  modal := .must
  type := some ⟨false, .array true, .signed .positive .integer⟩
  fields := .single "values"
  predicate := none
  child := none

/-- One element has the wrong sign and is let through, another is no integer and is not. -/
theorem readingSentence_ignores_sign :
    (readingSentence.enter 2 {}).1 = .ok [] ∧ "values" ∈ readingSentence.fields.names ∧
    (∀ place, ((readingSentence.typeConstraints "values").flatMap fun c => c.requirement.problems
      (.object [("values", .array [.number (.integer 3), .number (.integer (-1))])]) place) = []) ∧
    ∀ place, ((readingSentence.typeConstraints "values").flatMap fun c => c.requirement.problems
      (.object [("values", .array [.number (.integer 3), .null])]) place) ≠ [] := by
  have h : (readingSentence.enter 2 {}).1 = .ok [] := by rfl
  have hf : "values" ∈ readingSentence.fields.names := by decide
  have hproblems := (enter_ignores_sign_of_array (Prod.ext h rfl) rfl hf).2
  refine ⟨h, hf, fun place => ?_, fun place => ?_⟩
  · exact (hproblems _ _ rfl place).1.mpr (by decide)
  · rw [ne_eq, (hproblems _ _ rfl place).1]
    decide

end ConstraintSentence

namespace Validator

/-- The values of a reading have to be positive. -/
def readings : String :=
  "\n".intercalate ["This document specifies a JSON object called a \"Reading\".",
    "A Reading MAY have a positive-integer-array field named \"values\"."]

def readingRules : RuleSet :=
  ⟨"Reading", RuleTables.insertAll {} [.allowed "Reading" "values",
    .constraint "Reading" (.of (.fieldRange "values" (.only .greaterThan (.ofInt 0)))),
    .constraint "Reading" (.of (.fieldType "values" .integer true false))]⟩

/-- A negative element of an array of positive integers is not reported. -/
theorem readings_of_negative :
    RuleSet.compile readings = .ok readingRules ∧ ¬Sign.positive.Admits (Binary64.ofInt (-1)) ∧
    Validator.validate {} readingRules (.object [("values", .array [.number (.integer (-1))])]) = [] := by
  have h : RuleSet.compile readings = .ok readingRules := by
    rw [RuleSet.compile_eq_chars]
    decide +kernel
  have hs : ¬0 < (Binary64.ofInt (-1)).rank := by decide +kernel
  have hp : Validator.problems {} readingRules (.object [("values", .array [.number (.integer (-1))])]) = [] := by
    decide +kernel
  refine ⟨h, hs, ?_⟩
  rw [validate, hp, List.map_nil]

end Validator

end ProseSchema
