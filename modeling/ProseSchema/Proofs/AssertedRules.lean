import Mathlib.Tactic.Lemma
import ProseSchema.Json.Access
import ProseSchema.Json.Lemmas
import ProseSchema.Conformance

/-!
# Conformance with asserted reading

The check against rules once more, now reading each value by the accessor of a type, which fails where the
value is of another type. Every accessor stands behind a test of its type, so none of them fails.
-/

namespace ProseSchema

/-- What can go wrong where something is taken for granted. -/
inductive Fault
  /-- A value is read as a type that it does not have. -/
  | misuse (misuse : Misuse)
  /-- A name is taken from an empty list. -/
  | noName
  /-- A machine is taken from an empty stack. -/
  | noMachine
  deriving DecidableEq

namespace Json

lemma readAs_eq_ok {α : Type} {type : JsonType} {read : Json → Option α} {value : Json} {a : α}
    (ht : value.hasType type = true) (hr : read value = some a) : readAs type read value = .ok a := by
  rw [readAs, if_pos ht, hr]

lemma asString_string (text : String) : (Json.string text).asString = .ok text :=
  readAs_eq_ok ((hasType_string_iff _).mpr ⟨text, rfl⟩) rfl

lemma asMembers_object (members : List (String × Json)) :
    (Json.object members).asMembers = .ok members :=
  readAs_eq_ok ((hasType_object_iff _).mpr ⟨members, rfl⟩) rfl

lemma asElements_array (elements : List Json) : (Json.array elements).asElements = .ok elements :=
  readAs_eq_ok ((hasType_array_iff _).mpr ⟨elements, rfl⟩) rfl

lemma keys_object (members : List (String × Json)) :
    (Json.object members).keys = .ok (members.map Prod.fst) := by
  rw [keys, asMembers_object]
  rfl

end Json

namespace Asserted

/-- A reading that must not fail. -/
def read {α : Type} (reading : Except Misuse α) : Except Fault α :=
  reading.mapError .misuse

/-- The value is read as the type of the literal once it is known to have it. -/
def holds (literal : Literal) (value : Json) : Except Fault Bool :=
  match literal with
  | .string text =>
    if value.hasType .string then return (← read value.asString) = text else return false
  | .bool b => if value.hasType .boolean then return (← read value.asBool) = b else return false
  | .null => return value.isNull
  | .integer _ | .float _ =>
    if value.hasType .numeric then do
      let x ← read value.asBinary64
      return literal.toBinary64?.any fun y => x.rank = y.rank
    else return false

def valueEdges (t : RuleTables) (node : Json) : Except Fault (List (String × String)) :=
  t.value.flatMapM fun rule =>
    match node.get? rule.2.1 with
    | some value => return if ← holds rule.2.2.1 value then [(rule.1, rule.2.2.2)] else []
    | none => return []

def close (t : RuleTables) (node : Json) (roles : List String) : Except Fault (List String) := do
  let edges ← valueEdges t node
  return expand edges (expand (t.presenceEdges node) (expand t.isA roles))

/-- A single name is the first of the list. -/
def missingProblems (names : List String) (place : Location) : Except Fault (List Problem) :=
  if names.length = 1 then
    match names with
    | name :: _ => return [.missingField place name]
    | [] => throw .noName
  else return [.missingFields place names]

def fieldTypeProblems (type : JsonType) (inArray nullable : Bool) (value : Json) (place : Location) :
    Except Fault (List Problem) :=
  if value.isNull then return if nullable then [] else [.nullValue place]
  else if !inArray then return Requirement.typeProblems type value place
  else if value.hasType .array then
    return Requirement.elementProblems type place 0 (← read value.asElements)
  else return [.wrongType place value.types .anyArray]

def rangeProblems (range : Range) (field : String) (value : Json) (place : Location) :
    Except Fault (List Problem) :=
  if value.hasType .numeric then do
    let x ← read value.asBinary64
    return (range.bounds.filter fun bound => !bound.1.holds x bound.2).map fun bound =>
      .outOfRange place field value bound.1 bound.2
  else return []

def requirementProblems (requirement : Requirement) (node : Json) (place : Location) :
    Except Fault (List Problem) :=
  match requirement with
  | .hasField names =>
    if !node.hasType .object || names.any (node.hasField ·) then return [] else missingProblems names place
  | .lacksField name => return if node.hasField name then [.forbiddenField place name] else []
  | .fieldType field type inArray nullable =>
    match node.get? field with
    | some value => fieldTypeProblems type inArray nullable value (place.key field)
    | none => return []
  | .fieldAmong field allowed =>
    match node.get? field with
    | some value => do
      let found ← allowed.anyM (holds · value)
      return if found then [] else [.notListed place field value allowed]
    | none => return []
  | .fieldRange field range =>
    match node.get? field with
    | some value => rangeProblems range field value place
    | none => return []
  | .onlyOneOf names =>
    return if node.hasType .object && 1 < names.countP (node.hasField ·) then [.severalFields place names]
      else []
  | .nonEmptyArray field =>
    match node.get? field with
    | some value =>
      if value.hasType .array then
        return if (← read value.length) = 0 then [.emptyArray place field] else []
      else return []
    | none => return []

lemma holds_eq (literal : Literal) (value : Json) : holds literal value = .ok (literal.holds value) := by
  cases literal <;> cases value <;> rfl

lemma flatMapM_eq {α β : Type} {f : α → Except Fault (List β)} {g : α → List β}
    (h : ∀ a, f a = .ok (g a)) (l : List α) : l.flatMapM f = .ok (l.flatMap g) := by
  induction l with
  | nil => rfl
  | cons a l ih =>
    rw [List.flatMapM_cons, h, ih]
    rfl

lemma valueEdges_eq (t : RuleTables) (node : Json) : valueEdges t node = .ok (t.valueEdges node) := by
  have hm (rule : String × String × Literal × String) :
      (match node.get? rule.2.1 with
        | some value => return if ← holds rule.2.2.1 value then [(rule.1, rule.2.2.2)] else []
        | none => return [] : Except Fault (List (String × String))) =
      .ok (if (node.get? rule.2.1).any rule.2.2.1.holds then [(rule.1, rule.2.2.2)] else []) := by
    cases node.get? rule.2.1 with
    | some value =>
      simp only [holds_eq]
      rfl
    | none => rfl
  rw [valueEdges, flatMapM_eq hm, RuleTables.valueEdges]
  congr 1
  induction t.value with
  | nil => rfl
  | cons rule rules ih =>
    rw [List.flatMap_cons, ih, List.filter_cons]
    split <;> rfl

lemma close_eq (t : RuleTables) (node : Json) (roles : List String) :
    close t node roles = .ok (t.close node roles) := by
  rw [close, valueEdges_eq]
  rfl

lemma fieldTypeProblems_eq (type : JsonType) (inArray nullable : Bool) (value : Json)
    (place : Location) :
    fieldTypeProblems type inArray nullable value place =
      .ok (Requirement.fieldTypeProblems type inArray nullable value place) := by
  cases value <;> cases inArray <;> rfl

lemma rangeProblems_eq (range : Range) (field : String) (value : Json) (place : Location) :
    rangeProblems range field value place = .ok (Requirement.rangeProblems range field value place) := by
  cases value <;> rfl

lemma requirementProblems_eq (requirement : Requirement) (node : Json) (place : Location) :
    requirementProblems requirement node place = .ok (requirement.problems node place) := by
  cases requirement with
  | hasField names =>
    simp only [requirementProblems, Requirement.problems]
    split
    · rfl
    · cases names with
      | nil => rfl
      | cons name names => cases names <;> rfl
  | lacksField name => rfl
  | fieldType field type inArray nullable =>
    rw [requirementProblems, Requirement.problems]
    cases node.get? field with
    | none => rfl
    | some value => exact fieldTypeProblems_eq type inArray nullable value _
  | fieldAmong field allowed =>
    rw [requirementProblems, Requirement.problems]
    cases node.get? field with
    | none => rfl
    | some value =>
      have hm : (holds · value) = fun literal => (pure (literal.holds value) : Except Fault Bool) :=
        funext fun literal => holds_eq literal value
      simp only [hm, List.anyM_pure]
      rfl
  | fieldRange field range =>
    rw [requirementProblems, Requirement.problems]
    cases node.get? field with
    | none => rfl
    | some value => exact rangeProblems_eq range field value place
  | onlyOneOf names => rfl
  | nonEmptyArray field =>
    rw [requirementProblems, Requirement.problems]
    cases node.get? field with
    | none => rfl
    | some value =>
      cases value with
      | array elements => cases elements <;> rfl
      | _ => rfl

/-! Items and the queue. -/

def constraintProblems (t : RuleTables) (item : Item) (roles : List String) :
    Except Fault (List Problem) :=
  roles.eraseDups.flatMapM fun role =>
    ((t.constraintsOf role).filter (·.applies roles)).flatMapM fun constraint =>
      requirementProblems constraint.requirement item.node item.place

def unknownFields (t : RuleTables) (item : Item) (roles : List String) : Except Fault (List Problem) :=
  if item.node.hasType .object then do
    let members ← read item.node.asMembers
    return (members.filter fun member => !t.allows roles member.1).map fun member =>
      .unknownField member.1 item.place
  else return []

def inside (place : Location) (roles : List String) (value : Json) : Except Fault (List Item) :=
  if value.hasType .object then
    return (← read value.asMembers).map fun member => ⟨member.2, place.key member.1, roles⟩
  else if value.hasType .array then
    return Item.ofElements place roles 0 (← read value.asElements)
  else return []

def ofMember (t : RuleTables) (place : Location) (roles : List String) (member : String × Json) :
    Except Fault (List Item) := do
  let place := place.key member.1
  let own := t.childRoles roles member.1
  let inner := t.grandchildRoles roles member.1
  let below ← if inner.isEmpty || t.allowsAny inner then pure [] else inside place inner member.2
  return (if own.isEmpty then [] else [⟨member.2, place, own⟩]) ++ below

def next (t : RuleTables) (item : Item) (roles : List String) : Except Fault (List Item) :=
  if item.node.hasType .object then do
    let members ← read item.node.asMembers
    members.flatMapM (ofMember t item.place roles)
  else return []

lemma constraintProblems_eq (t : RuleTables) (item : Item) :
    constraintProblems t item (item.allRoles t) = .ok (item.constraintProblems t) :=
  flatMapM_eq (fun _ => flatMapM_eq (fun _ => requirementProblems_eq _ _ _) _) _

lemma unknownFields_eq (t : RuleTables) (item : Item) :
    unknownFields t item (item.allRoles t) = .ok (item.unknownFields t) := by
  obtain ⟨node, place, roles⟩ := item
  cases node <;> rfl

lemma inside_eq (place : Location) (roles : List String) (value : Json) :
    inside place roles value = .ok (Item.inside place roles value) := by
  cases value <;> rfl

lemma ofMember_eq (t : RuleTables) (place : Location) (roles : List String) (member : String × Json) :
    ofMember t place roles member = .ok (Item.ofMember t place roles member) := by
  simp only [ofMember, Item.ofMember, inside_eq]
  split <;> rfl

lemma next_eq (t : RuleTables) (item : Item) : next t item (item.allRoles t) = .ok (item.next t) := by
  obtain ⟨node, place, roles⟩ := item
  cases node with
  | object members => exact flatMapM_eq (ofMember_eq t place _) members
  | _ => rfl

def problems (t : RuleTables) (item : Item) (roles : List String) : Except Fault (List Problem) := do
  let broken ← constraintProblems t item roles
  return broken ++ (← unknownFields t item roles)

lemma problems_eq (t : RuleTables) (item : Item) :
    problems t item (item.allRoles t) = .ok (item.problems t) := by
  rw [problems, constraintProblems_eq, unknownFields_eq]
  rfl

/-- The problems of an item, and the items that it gives rise to. -/
def evaluate (t : RuleTables) (item : Item) : Except Fault (List Problem × List Item) := do
  let roles ← close t item.node item.roles
  let found ← problems t item roles
  return (found, ← next t item roles)

lemma evaluate_eq (t : RuleTables) (item : Item) :
    evaluate t item = .ok (item.problems t, item.next t) := by
  rw [evaluate, close_eq]
  change (do
    let found ← problems t item (item.allRoles t)
    return (found, ← next t item (item.allRoles t))) = _
  rw [problems_eq, next_eq]
  rfl

def sweep (t : RuleTables) : List Item → Except Fault (List Problem)
  | [] => return []
  | item :: queue =>
    match _h : evaluate t item with
    | .ok (found, inner) => return found ++ (← sweep t (queue ++ inner))
    | .error fault => throw fault
termination_by queue => queueWeight queue
decreasing_by
  rw [evaluate_eq] at _h
  cases _h
  have := queueWeight_next_lt t item
  rw [queueWeight_append, queueWeight]
  omega

theorem sweep_eq (t : RuleTables) (queue : List Item) :
    sweep t queue = .ok (ProseSchema.sweep t queue) := by
  induction queue using ProseSchema.sweep.induct t with
  | case1 =>
    unfold sweep ProseSchema.sweep
    rfl
  | case2 item queue ih =>
    unfold sweep ProseSchema.sweep
    split
    · next h =>
      rw [evaluate_eq] at h
      cases h
      rw [ih]
      rfl
    · next h => simp [evaluate_eq] at h

end Asserted

end ProseSchema
