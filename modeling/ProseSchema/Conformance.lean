import ProseSchema.Rules.Closure
import ProseSchema.Rules.Compile

/-!
# Conformance to rules

Checks every value of a document that plays a role. Values wait in a queue with the roles that their
place gives them; what is inside a value joins the end of the queue, so that problems come level by level.
-/

namespace ProseSchema

namespace Json

mutual

/-- A size that grows fast enough for a value to outweigh twice what is inside it. -/
def weight : Json → Nat
  | .array elements => 1 + 2 * elementsWeight elements
  | .object members => 1 + 2 * membersWeight members
  | _ => 1

def elementsWeight : List Json → Nat
  | [] => 0
  | value :: values => weight value + elementsWeight values

def membersWeight : List (String × Json) → Nat
  | [] => 0
  | (_, value) :: members => weight value + membersWeight members

end

theorem weight_pos (value : Json) : 0 < value.weight := by
  cases value <;> simp only [weight] <;> omega

end Json

/-- A value to be checked, and the roles that its place gives it. -/
structure Item where
  node : Json
  place : Location
  roles : List String

namespace Item

def ofElements (place : Location) (roles : List String) : (start : Nat) → List Json → List Item
  | _, [] => []
  | start, element :: elements =>
    ⟨element, place.index start, roles⟩ :: ofElements place roles (start + 1) elements

def inside (place : Location) (roles : List String) : Json → List Item
  | .object members => members.map fun member => ⟨member.2, place.key member.1, roles⟩
  | .array elements => ofElements place roles 0 elements
  | _ => []

def allRoles (t : RuleTables) (item : Item) : List String :=
  t.close item.node item.roles

/-- What the constraints of the roles say, role by role, each role once. -/
def constraintProblems (t : RuleTables) (item : Item) : List Problem :=
  let roles := item.allRoles t
  roles.eraseDups.flatMap fun role =>
    ((t.constraintsOf role).filter (·.applies roles)).flatMap fun constraint =>
      constraint.requirement.problems item.node item.place

def unknownFields (t : RuleTables) (item : Item) : List Problem :=
  match item.node with
  | .object members =>
    let roles := item.allRoles t
    (members.filter fun member => !t.allows roles member.1).map fun member =>
      .unknownField member.1 item.place
  | _ => []

def problems (t : RuleTables) (item : Item) : List Problem :=
  item.constraintProblems t ++ item.unknownFields t

/-- The items that a member of an object gives rise to: its value, and what is inside that. What is inside
is left alone where one of its roles allows every field. -/
def ofMember (t : RuleTables) (place : Location) (roles : List String) (member : String × Json) :
    List Item :=
  let place := place.key member.1
  let own := t.childRoles roles member.1
  let inner := t.grandchildRoles roles member.1
  (if own.isEmpty then [] else [⟨member.2, place, own⟩]) ++
  (if inner.isEmpty || t.allowsAny inner then [] else inside place inner member.2)

def next (t : RuleTables) (item : Item) : List Item :=
  match item.node with
  | .object members => members.flatMap (ofMember t item.place (item.allRoles t))
  | _ => []

def weight (item : Item) : Nat :=
  item.node.weight

end Item

def queueWeight : List Item → Nat
  | [] => 0
  | item :: queue => item.weight + queueWeight queue

theorem queueWeight_append (a b : List Item) :
    queueWeight (a ++ b) = queueWeight a + queueWeight b := by
  induction a with
  | nil => simp [queueWeight]
  | cons item a ih => rw [List.cons_append, queueWeight, queueWeight, ih, Nat.add_assoc]

theorem queueWeight_ofElements (place : Location) (roles : List String) (start : Nat)
    (elements : List Json) :
    queueWeight (Item.ofElements place roles start elements) = Json.elementsWeight elements := by
  induction elements generalizing start with
  | nil => rfl
  | cons element elements ih =>
    rw [Item.ofElements, queueWeight, ih, Json.elementsWeight, Item.weight]

theorem queueWeight_members (place : Location) (roles : List String)
    (members : List (String × Json)) :
    queueWeight (members.map fun member => ⟨member.2, place.key member.1, roles⟩) =
      Json.membersWeight members := by
  induction members with
  | nil => rfl
  | cons member members ih =>
    rw [List.map_cons, queueWeight, ih, Json.membersWeight, Item.weight]

theorem queueWeight_inside_lt (place : Location) (roles : List String) (value : Json) :
    queueWeight (Item.inside place roles value) < value.weight := by
  cases value with
  | object members => rw [Item.inside, queueWeight_members, Json.weight]; omega
  | array elements => rw [Item.inside, queueWeight_ofElements, Json.weight]; omega
  | _ => exact Json.weight_pos _

theorem queueWeight_ofMember_le (t : RuleTables) (place : Location) (roles : List String)
    (member : String × Json) :
    queueWeight (Item.ofMember t place roles member) ≤ 2 * member.2.weight := by
  have h := queueWeight_inside_lt (place.key member.1) (t.grandchildRoles roles member.1) member.2
  rw [Item.ofMember, queueWeight_append]
  split <;> split <;> simp only [queueWeight, Item.weight] <;> omega

/-- An item outweighs all the items that it gives rise to. -/
theorem queueWeight_next_lt (t : RuleTables) (item : Item) :
    queueWeight (item.next t) < item.weight := by
  obtain ⟨node, place, roles⟩ := item
  cases node with
  | object members =>
    have h (all : List String) : queueWeight (members.flatMap (Item.ofMember t place all)) ≤
        2 * Json.membersWeight members := by
      induction members with
      | nil => exact Nat.zero_le _
      | cons member members ih =>
        have := queueWeight_ofMember_le t place all member
        rw [List.flatMap_cons, queueWeight_append, Json.membersWeight]
        omega
    have := h (Item.allRoles t ⟨.object members, place, roles⟩)
    simp only [Item.next, Item.weight, Json.weight]
    omega
  | _ => exact Json.weight_pos _

/-- Checks the items of a queue and all that they give rise to. -/
def sweep (t : RuleTables) : List Item → List Problem
  | [] => []
  | item :: queue => item.problems t ++ sweep t (queue ++ item.next t)
termination_by queue => queueWeight queue
decreasing_by
  have := queueWeight_next_lt t item
  rw [queueWeight_append, queueWeight]
  omega

namespace RuleSet

def rootItem (rules : RuleSet) (document : Json) : Item :=
  ⟨document, .ofRoot rules.root, [rules.root]⟩

def problems (rules : RuleSet) (document : Json) : List Problem :=
  sweep rules.tables [rules.rootItem document]

end RuleSet

end ProseSchema
