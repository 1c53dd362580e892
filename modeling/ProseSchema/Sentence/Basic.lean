import ProseSchema.Sentence.TypePhrase

/-!
# Sentences

What the sentences of a rule text say. Besides the declaration of the root there are four forms: a
constraint on the fields of a role, a choice between fields, a definition of a role, and a sentence said of
each of several roles.
-/

namespace ProseSchema

/-- Does a sentence require its field, permit it or forbid it? -/
inductive Modal
  | must
  | may
  | mustNot
  deriving DecidableEq

inductive FieldNames
  /-- A `field named "X"`. -/
  | single (name : String)
  /-- A `field named one of "X", "Y", or "Z"`. -/
  | oneOf (names : List String)
  deriving DecidableEq

namespace FieldNames

def names : FieldNames → List String
  | single name => [name]
  | oneOf names => names

end FieldNames

inductive Relation
  | equalTo
  | greaterThan
  | lessThan
  | greaterThanOrEqualTo
  | lessThanOrEqualTo
  deriving DecidableEq

namespace Relation

/-- The words for a relation, with the phrases that hold another one in front of it. -/
def all : List Relation :=
  [greaterThanOrEqualTo, lessThanOrEqualTo, equalTo, greaterThan, lessThan]

def words : Relation → String
  | equalTo => "equal to"
  | greaterThan => "greater than"
  | lessThan => "less than"
  | greaterThanOrEqualTo => "greater than or equal to"
  | lessThanOrEqualTo => "less than or equal to"

end Relation

inductive Predicate
  /-- The value is in a relation to a number, given as the token written. -/
  | relation (relation : Relation) (target : String)
  /-- The value is one of those listed, given without their quotes. -/
  | oneOf (values : List String)
  deriving DecidableEq

/-- Which values take on a role because of where they stand. -/
inductive ChildClause
  /-- The value of the field. -/
  | value (role : String)
  /-- Each member or element of the value of the field. -/
  | each (role : String)
  deriving DecidableEq

namespace ChildClause

def role : ChildClause → String
  | value role => role
  | each role => role

end ChildClause

structure ConstraintSentence where
  role : String
  /-- The sentence does not speak of what plays one of these roles. -/
  excluded : List String
  modal : Modal
  type : Option TypePhrase
  fields : FieldNames
  predicate : Option Predicate
  child : Option ChildClause
  deriving DecidableEq

/-- What gives a node of some role another role. -/
inductive RoleCondition
  | always
  /-- The field holds the value, given as the token written. -/
  | fieldValue (field token : String)
  | fieldPresence (field : String)
  deriving DecidableEq

structure RoleDefinition where
  role : String
  condition : RoleCondition
  newRole : String
  deriving DecidableEq

inductive Sentence
  | constraint (sentence : ConstraintSentence)
  /-- The role has one of the fields at most. -/
  | onlyOneOf (role : String) (fields : List String)
  /-- The trailer is said of each of the roles. -/
  | eachOf (roles : List String) (trailer : String)
  | roleDefinition (definition : RoleDefinition)
  deriving DecidableEq

end ProseSchema
