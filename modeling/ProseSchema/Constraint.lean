import ProseSchema.Problem.Basic

/-!
# Constraints

What a node that plays some role has to satisfy, and the problems that it has when it does not.
-/

namespace ProseSchema

namespace Relation

def holds (relation : Relation) (x bound : Binary64) : Bool :=
  match relation with
  | equalTo => x.rank = bound.rank
  | greaterThan => bound.rank < x.rank
  | lessThan => x.rank < bound.rank
  | greaterThanOrEqualTo => bound.rank ≤ x.rank
  | lessThanOrEqualTo => x.rank ≤ bound.rank

end Relation

/-- Bounds of a number, at most one for each relation. -/
structure Range where
  equalTo : Option Binary64 := none
  greaterThan : Option Binary64 := none
  greaterThanOrEqualTo : Option Binary64 := none
  lessThan : Option Binary64 := none
  lessThanOrEqualTo : Option Binary64 := none
  deriving DecidableEq

namespace Range

def only (relation : Relation) (bound : Binary64) : Range :=
  match relation with
  | .equalTo => { equalTo := some bound }
  | .greaterThan => { greaterThan := some bound }
  | .greaterThanOrEqualTo => { greaterThanOrEqualTo := some bound }
  | .lessThan => { lessThan := some bound }
  | .lessThanOrEqualTo => { lessThanOrEqualTo := some bound }

/-- The bounds in the order in which they are checked. -/
def bounds (range : Range) : List (Relation × Binary64) :=
  (range.equalTo.map (.equalTo, ·)).toList ++
  (range.greaterThan.map (.greaterThan, ·)).toList ++
  (range.greaterThanOrEqualTo.map (.greaterThanOrEqualTo, ·)).toList ++
  (range.lessThan.map (.lessThan, ·)).toList ++
  (range.lessThanOrEqualTo.map (.lessThanOrEqualTo, ·)).toList

end Range

inductive Requirement
  /-- One of the fields at least is present. -/
  | hasField (names : List String)
  | lacksField (name : String)
  /-- The field, when present, has the type; `inArray` says so of each element of an array instead. -/
  | fieldType (field : String) (type : JsonType) (inArray nullable : Bool)
  /-- The field, when present, equals one of the literals. -/
  | fieldAmong (field : String) (allowed : List Literal)
  /-- The field, when it is a number, keeps the bounds. -/
  | fieldRange (field : String) (range : Range)
  /-- One of the fields at most is present. -/
  | onlyOneOf (names : List String)
  /-- The field, when it is an array, has an element. -/
  | nonEmptyArray (field : String)
  deriving DecidableEq

namespace Requirement

def typeProblems (type : JsonType) (value : Json) (place : Location) : List Problem :=
  if value.hasType type then [] else [.wrongType place value.types (.one type)]

def elementProblems (type : JsonType) (place : Location) : (start : Nat) → List Json → List Problem
  | _, [] => []
  | start, element :: elements =>
    typeProblems type element (place.index start) ++ elementProblems type place (start + 1) elements

def fieldTypeProblems (type : JsonType) (inArray nullable : Bool) (value : Json) (place : Location) :
    List Problem :=
  if value.isNull then if nullable then [] else [.nullValue place]
  else if inArray then
    match value with
    | .array elements => elementProblems type place 0 elements
    | _ => [.wrongType place value.types .anyArray]
  else typeProblems type value place

def rangeProblems (range : Range) (field : String) (value : Json) (place : Location) : List Problem :=
  match value with
  | .number n =>
    (range.bounds.filter fun bound => !bound.1.holds n.toBinary64 bound.2).map fun bound =>
      .outOfRange place field value bound.1 bound.2
  | _ => []

def problems (requirement : Requirement) (node : Json) (place : Location) : List Problem :=
  match requirement with
  | hasField names =>
    if !node.hasType .object || names.any (node.hasField ·) then []
    else match names with
      | [name] => [.missingField place name]
      | _ => [.missingFields place names]
  | lacksField name => if node.hasField name then [.forbiddenField place name] else []
  | fieldType field type inArray nullable =>
    match node.get? field with
    | some value => fieldTypeProblems type inArray nullable value (place.key field)
    | none => []
  | fieldAmong field allowed =>
    match node.get? field with
    | some value =>
      if allowed.any (·.holds value) then [] else [.notListed place field value allowed]
    | none => []
  | fieldRange field range =>
    match node.get? field with
    | some value => rangeProblems range field value place
    | none => []
  | onlyOneOf names =>
    if node.hasType .object && 1 < names.countP (node.hasField ·) then [.severalFields place names]
    else []
  | nonEmptyArray field =>
    match node.get? field with
    | some (.array []) => [.emptyArray place field]
    | _ => []

end Requirement

/-- A requirement of the nodes that play no excluded role. -/
structure Constraint where
  requirement : Requirement
  /-- Lists of roles; a node that plays any role of any list is left alone. -/
  exclusions : List (List String)
  deriving DecidableEq

namespace Constraint

def of (requirement : Requirement) : Constraint :=
  ⟨requirement, []⟩

/-- The constraint with one more list of excluded roles. -/
def exclude (constraint : Constraint) (roles : List String) : Constraint :=
  if roles.isEmpty then constraint
  else ⟨constraint.requirement, constraint.exclusions ++ [roles]⟩

def applies (constraint : Constraint) (roles : List String) : Bool :=
  !constraint.exclusions.any fun excluded => excluded.any roles.contains

end Constraint

end ProseSchema
