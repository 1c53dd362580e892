import ProseSchema.Rules.Error
import ProseSchema.Rules.Tables

/-!
# What sentences enter into the tables
-/

namespace ProseSchema

namespace Sign

def range : Sign → Range
  | positive => .only .greaterThan (.ofInt 0)
  | negative => .only .lessThan (.ofInt 0)
  | nonnegative => .only .greaterThanOrEqualTo (.ofInt 0)

end Sign

namespace TypePhrase

/-- What a type phrase requires of a field. A sign bounds the value of the field itself. -/
def requirements (phrase : TypePhrase) (field : String) : List Requirement :=
  let nonempty := match phrase.arrangement with
    | .array true => [.nonEmptyArray field]
    | _ => []
  let signed := match phrase.base.sign? with
    | some sign => [.fieldRange field sign.range]
    | none => []
  let inArray := match phrase.arrangement with
    | .single => false
    | .array _ => true
  nonempty ++ signed ++ [.fieldType field phrase.base.toJsonType inArray phrase.nullable]

end TypePhrase

namespace Predicate

def requirement (predicate : Predicate) (field : String) (line : Nat) : Except RuleError Requirement :=
  match predicate with
  | relation r target =>
    match (Literal.ofToken target).toBinary64? with
    | some bound => .ok (.fieldRange field (.only r bound))
    | none => .error (.nonNumericTarget line target)
  | oneOf values => .ok (.fieldAmong field (values.map Literal.ofToken))

end Predicate

namespace ConstraintSentence

def fieldRequirements (s : ConstraintSentence) (line : Nat) (field : String) :
    Except RuleError (List Requirement) := do
  let bounds ← match s.predicate with
    | some predicate => (fun r => [r]) <$> predicate.requirement field line
    | none => pure []
  let types := match s.type with
    | some phrase => phrase.requirements field
    | none => []
  pure (bounds ++ types)

def modalRequirements (s : ConstraintSentence) : List Requirement :=
  match s.modal with
  | .must => [.hasField s.fields.names]
  | .mustNot => s.fields.names.map .lacksField
  | .may => []

/-- All that the sentence requires: field by field, and then by its modal verb. -/
def requirements (s : ConstraintSentence) (line : Nat) : Except RuleError (List Requirement) := do
  let ofFields ← s.fields.names.mapM (s.fieldRequirements line)
  pure (ofFields.flatten ++ s.modalRequirements)

/-- Does the sentence leave open what is inside its field?  It does if it permits a single field and
gives it no type but `object` or `array`. -/
def isOpen (s : ConstraintSentence) : Bool :=
  s.type.all TypePhrase.isOpen && s.modal ≠ .mustNot

/-- The entries about the roles of what is inside the fields. What is inside an open field plays a role
that is named for the field and may have any field. -/
def childEntries (s : ConstraintSentence) : List Entry :=
  match s.child, s.fields with
  | some (.value role), fields => fields.names.map fun field => .child s.role field role
  | some (.each role), fields => fields.names.map fun field => .grandchild s.role field role
  | none, .single field => if s.isOpen then [.grandchild s.role field field, .anyField field] else []
  | none, .oneOf _ => []

def entriesFor (s : ConstraintSentence) (requirements : List Requirement) : List Entry :=
  s.fields.names.map (.allowed s.role ·) ++
  requirements.map (fun r => .constraint s.role ((Constraint.of r).exclude s.excluded)) ++
  s.childEntries

def newRoles (s : ConstraintSentence) : List String :=
  (s.child.map ChildClause.role).toList

/-- Enters a sentence that stands on line `line` into the tables: the roles that it introduces, and the
tables afterwards. A sentence that is refused leaves no entry behind. -/
def enter (s : ConstraintSentence) (line : Nat) (t : RuleTables) :
    Except RuleError (List String) × RuleTables :=
  match s.requirements line with
  | .ok requirements => (.ok s.newRoles, t.insertAll (s.entriesFor requirements))
  | .error e => (.error e, t)

end ConstraintSentence

namespace RoleDefinition

def entry (d : RoleDefinition) : Entry :=
  match d.condition with
  | .always => .isA d.role d.newRole
  | .fieldPresence field => .presence d.role field d.newRole
  | .fieldValue field token => .value d.role field (Literal.ofToken token) d.newRole

end RoleDefinition

def onlyOneOfEntry (role : String) (fields : List String) : Entry :=
  .constraint role (.of (.onlyOneOf fields))

end ProseSchema
