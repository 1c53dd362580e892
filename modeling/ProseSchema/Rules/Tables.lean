import ProseSchema.Constraint

/-!
# Rule tables

What a rule text says, one entry after the other: which roles a node takes on, what a node of some role
has to satisfy, and which fields it may have.
-/

namespace ProseSchema

/-- One entry of the rule tables. -/
inductive Entry
  /-- Whatever plays the role also plays the new role. -/
  | isA (role newRole : String)
  /-- Whatever plays the role and has the field also plays the new role. -/
  | presence (role field newRole : String)
  /-- Whatever plays the role and holds the value in the field also plays the new role. -/
  | value (role field : String) (literal : Literal) (newRole : String)
  /-- The field of what plays the role plays the child role. -/
  | child (role field childRole : String)
  /-- Each member or element of that field plays the child role. -/
  | grandchild (role field childRole : String)
  | constraint (role : String) (constraint : Constraint)
  /-- What plays the role may have the field. -/
  | allowed (role field : String)
  /-- What plays the role may have any field. -/
  | anyField (role : String)
  deriving DecidableEq

/-- The entries by kind, each in the order of insertion. -/
structure RuleTables where
  /-- Role and new role. -/
  isA : List (String × String) := []
  /-- Role, field and new role. -/
  presence : List (String × String × String) := []
  /-- Role, field, value and new role. -/
  value : List (String × String × Literal × String) := []
  /-- Role, field and child role. -/
  child : List (String × String × String) := []
  /-- Role, field and child role. -/
  grandchild : List (String × String × String) := []
  constraints : List (String × Constraint) := []
  /-- Role and field. -/
  allowed : List (String × String) := []
  anyField : List String := []
  deriving DecidableEq

namespace RuleTables

def insert (t : RuleTables) : Entry → RuleTables
  | .isA role newRole => { t with isA := t.isA ++ [(role, newRole)] }
  | .presence role field newRole => { t with presence := t.presence ++ [(role, field, newRole)] }
  | .value role field literal newRole => { t with value := t.value ++ [(role, field, literal, newRole)] }
  | .child role field childRole => { t with child := t.child ++ [(role, field, childRole)] }
  | .grandchild role field childRole => { t with grandchild := t.grandchild ++ [(role, field, childRole)] }
  | .constraint role constraint => { t with constraints := t.constraints ++ [(role, constraint)] }
  | .allowed role field => { t with allowed := t.allowed ++ [(role, field)] }
  | .anyField role => { t with anyField := t.anyField ++ [role] }

def insertAll (t : RuleTables) (entries : List Entry) : RuleTables :=
  entries.foldl insert t

theorem insertAll_append (t : RuleTables) (entries later : List Entry) :
    t.insertAll (entries ++ later) = (t.insertAll entries).insertAll later :=
  List.foldl_append

def constraintsOf (t : RuleTables) (role : String) : List Constraint :=
  (t.constraints.filter fun entry => entry.1 = role).map Prod.snd

def allowsAny (t : RuleTables) (roles : List String) : Bool :=
  roles.any t.anyField.contains

def allows (t : RuleTables) (roles : List String) (field : String) : Bool :=
  t.allowsAny roles || roles.any fun role => t.allowed.contains (role, field)

/-- The child roles that entries give for a field of a node with some roles, each once, in the order of
the roles and then of the entries. -/
def childrenIn (entries : List (String × String × String)) (roles : List String) (field : String) :
    List String :=
  (roles.flatMap fun role =>
    (entries.filter fun entry => entry.1 = role && entry.2.1 = field).map fun entry => entry.2.2).eraseDups

def childRoles (t : RuleTables) (roles : List String) (field : String) : List String :=
  childrenIn t.child roles field

def grandchildRoles (t : RuleTables) (roles : List String) (field : String) : List String :=
  childrenIn t.grandchild roles field

end RuleTables

end ProseSchema
