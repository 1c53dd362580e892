import Mathlib.Data.List.Forall2
import ProseSchema.Json.Lemmas
import ProseSchema.Rules.Compile
import ProseSchema.Conformance

/-!
# Values that are not read

Rules and constraints that speak of the presence of a field do not look at its value, and a field that gives its
contents no roles to be checked hides them. Where this holds of a member for every role of its object, any other
value in its place leaves all problems as they are.
-/

namespace ProseSchema

/-- The same members in the same order, but for the values of those of one name. -/
def SameBut (field : String) : List (String × Json) → List (String × Json) → Prop :=
  List.Forall₂ fun member other => member.1 = other.1 ∧ (member.1 = field ∨ member.2 = other.2)

namespace SameBut

variable {field : String} {members others : List (String × Json)}

lemma refl (field : String) (members : List (String × Json)) : SameBut field members members :=
  List.forall₂_same.mpr fun _ _ => ⟨rfl, .inr rfl⟩

lemma of_replaced (before after : List (String × Json)) (value other : Json) :
    SameBut field (before ++ (field, value) :: after) (before ++ (field, other) :: after) :=
  List.rel_append (refl field before) (.cons ⟨rfl, .inl rfl⟩ (refl field after))

lemma map_fst (h : SameBut field members others) : members.map Prod.fst = others.map Prod.fst := by
  induction h with
  | nil => rfl
  | cons hmember _ ih => rw [List.map_cons, List.map_cons, hmember.1, ih]

lemma lookup (h : SameBut field members others) {name : String} (hname : name ≠ field) :
    members.lookup name = others.lookup name := by
  induction h with
  | nil => rfl
  | @cons member other members others hmember _ ih =>
    obtain ⟨key, value⟩ := member
    obtain ⟨key', value'⟩ := other
    obtain ⟨hkey, hvalue⟩ := hmember
    obtain rfl : key = key' := hkey
    rw [List.lookup_cons, List.lookup_cons, ih]
    cases hk : name == key with
    | true =>
      obtain rfl : name = key := by simpa using hk
      exact congrArg some (hvalue.resolve_left hname)
    | false => rfl

lemma hasField (h : SameBut field members others) (name : String) :
    (Json.object members).hasField name = (Json.object others).hasField name := by
  rw [Bool.eq_iff_iff, Json.hasField, Json.hasField, Json.get?, Json.get?, Json.isSome_lookup_iff, Json.isSome_lookup_iff,
    h.map_fst]

/-- What is made of the members of other names is the same, where nothing is made of those of the one name. -/
lemma flatMap_eq {α : Type} (h : SameBut field members others) {f : String × Json → List α}
    (hf : ∀ value, f (field, value) = []) : members.flatMap f = others.flatMap f := by
  induction h with
  | nil => rfl
  | @cons member other members others hmember _ ih =>
    have hm : f member = f other := by
      obtain ⟨name, value⟩ := member
      obtain ⟨name', value'⟩ := other
      obtain ⟨hname, hvalue⟩ := hmember
      obtain rfl : name = name' := hname
      rcases hvalue with hfield | hvalue
      · obtain rfl : name = field := hfield
        rw [hf, hf]
      · exact congrArg (fun value => f (name, value)) hvalue
    rw [List.flatMap_cons, List.flatMap_cons, hm, ih]

end SameBut

/-- The requirement is about the value of the field, and not only about its presence. -/
def Requirement.ReadsValue (field : String) : Requirement → Prop
  | hasField _ | lacksField _ | onlyOneOf _ => False
  | fieldType name _ _ _ | fieldAmong name _ | fieldRange name _ | nonEmptyArray name => name = field

/-- No table looks at what is in the field of a node that plays the roles: no rule about values and no constraint
of a role names the field, its value is given no role, and neither is anything inside unless one of these roles
allows every field. -/
structure RuleTables.Ignores (t : RuleTables) (roles : List String) (field : String) : Prop where
  values : ∀ rule ∈ t.value, rule.1 ∈ roles → rule.2.1 ≠ field
  constraints : ∀ role ∈ roles, ∀ constraint ∈ t.constraintsOf role, ¬constraint.requirement.ReadsValue field
  children : t.childRoles roles field = []
  grandchildren : t.grandchildRoles roles field = [] ∨ t.allowsAny (t.grandchildRoles roles field) = true

instance (field : String) : (requirement : Requirement) → Decidable (requirement.ReadsValue field)
  | .hasField _ | .lacksField _ | .onlyOneOf _ => inferInstanceAs (Decidable False)
  | .fieldType name _ _ _ | .fieldAmong name _ | .fieldRange name _ | .nonEmptyArray name =>
    inferInstanceAs (Decidable (name = field))

instance (t : RuleTables) (roles : List String) (field : String) : Decidable (t.Ignores roles field) :=
  decidable_of_iff ((∀ rule ∈ t.value, rule.1 ∈ roles → rule.2.1 ≠ field) ∧
      (∀ role ∈ roles, ∀ constraint ∈ t.constraintsOf role, ¬constraint.requirement.ReadsValue field) ∧
      t.childRoles roles field = [] ∧
      (t.grandchildRoles roles field = [] ∨ t.allowsAny (t.grandchildRoles roles field) = true))
    ⟨fun ⟨h₁, h₂, h₃, h₄⟩ => ⟨h₁, h₂, h₃, h₄⟩,
      fun h => ⟨h.values, h.constraints, h.children, h.grandchildren⟩⟩

lemma targets_edgesBeside {edges : List (String × String)} {role other : String} (h : other ≠ role) :
    targets (edgesBeside edges role) other = targets edges other := by
  rw [targets, targets, edgesBeside, List.filter_filter]
  congr 1
  apply List.filter_congr
  intro edge _
  by_cases he : edge.1 = other
  · simp [he, h]
  · simp [he]

lemma targets_edgesBeside_self (edges : List (String × String)) (role : String) :
    targets (edgesBeside edges role) role = [] := by
  simp [targets, edgesBeside, List.filter_filter]

/-- An expansion uses no edges but those that leave its own roles. -/
theorem expand_congr {edges others : List (String × String)} {roles : List String}
    (h : ∀ role ∈ expand edges roles, targets edges role = targets others role) :
    expand edges roles = expand others roles := by
  induction edges, roles using expand.induct generalizing others with
  | case1 edges => rw [expand, expand]
  | case2 edges role roles ih =>
    rw [expand] at h ⊢
    rw [List.forall_mem_cons] at h
    rw [expand, ← h.1]
    congr 1
    apply ih
    intro other ho
    by_cases hother : other = role
    · rw [hother, targets_edgesBeside_self, targets_edgesBeside_self]
    · rw [targets_edgesBeside hother, targets_edgesBeside hother, h.2 other ho]

section

variable {t : RuleTables} {field : String} {members others : List (String × Json)}
  (hsame : SameBut field members others)

include hsame

/-- Rules about presence cannot tell the two nodes apart, and rules about values only by naming the field. -/
lemma RuleTables.close_eq_of_sameBut {given : List String}
    (h : ∀ rule ∈ t.value, rule.1 ∈ t.close (.object members) given → rule.2.1 ≠ field) :
    t.close (.object members) given = t.close (.object others) given := by
  have hpresence : t.presenceEdges (.object members) = t.presenceEdges (.object others) := by
    simp only [presenceEdges, hsame.hasField]
  rw [close, close, hpresence]
  apply expand_congr
  intro role hr
  rw [← hpresence] at hr
  rw [targets, targets, valueEdges, valueEdges, List.filter_map, List.filter_map, List.filter_filter,
    List.filter_filter]
  congr 2
  apply List.filter_congr
  intro rule hrule
  by_cases hrole : rule.1 = role
  · have hfield : rule.2.1 ≠ field := h rule hrule (hrole ▸ hr)
    simp only [Json.get?, hsame.lookup hfield]
  · simp [hrole]

lemma Requirement.problems_eq_of_sameBut {requirement : Requirement} (h : ¬requirement.ReadsValue field)
    (place : Location) :
    requirement.problems (.object members) place = requirement.problems (.object others) place := by
  cases requirement with
  | hasField names => simp only [problems, hsame.hasField, Json.hasType]
  | lacksField name => simp only [problems, hsame.hasField]
  | onlyOneOf names => simp only [problems, hsame.hasField, Json.hasType]
  | fieldType name | fieldAmong name | fieldRange name | nonEmptyArray name =>
    simp only [problems, Json.get?, hsame.lookup h]

namespace Item

variable {place : Location} {roles : List String}
  (hignored : t.Ignores (t.close (.object members) roles) field)

include hignored

lemma allRoles_eq_of_sameBut (place : Location) :
    allRoles t ⟨.object members, place, roles⟩ = allRoles t ⟨.object others, place, roles⟩ :=
  RuleTables.close_eq_of_sameBut hsame hignored.values

lemma problems_eq_of_sameBut :
    problems t ⟨.object members, place, roles⟩ = problems t ⟨.object others, place, roles⟩ := by
  have hroles := allRoles_eq_of_sameBut hsame hignored place
  have hconstraints : constraintProblems t ⟨.object members, place, roles⟩ =
      constraintProblems t ⟨.object others, place, roles⟩ := by
    rw [constraintProblems, constraintProblems, ← hroles]
    apply List.flatMap_congr
    intro role hr
    apply List.flatMap_congr
    intro constraint hc
    exact Requirement.problems_eq_of_sameBut hsame (hignored.constraints role (List.mem_eraseDups.mp hr)
      constraint (List.mem_filter.mp hc).1) place
  have hunknown : unknownFields t ⟨.object members, place, roles⟩ =
      unknownFields t ⟨.object others, place, roles⟩ := by
    have hnames (all : List String) (ms : List (String × Json)) :
        (ms.filter fun member => !t.allows all member.1).map (fun member => Problem.unknownField member.1 place) =
          ((ms.map Prod.fst).filter fun name => !t.allows all name).map (.unknownField · place) := by
      rw [List.filter_map, List.map_map]
      rfl
    rw [unknownFields, unknownFields, ← hroles]
    dsimp only
    rw [hnames, hnames, hsame.map_fst]
  rw [problems, problems, hconstraints, hunknown]

omit hsame in
/-- The member that is ignored gives rise to nothing. -/
lemma ofMember_of_ignores (value : Json) :
    ofMember t place (t.close (.object members) roles) (field, value) = [] := by
  rw [ofMember, hignored.children]
  rcases hignored.grandchildren with hnone | hany
  · simp [hnone]
  · simp [hany]

lemma next_eq_of_sameBut :
    next t ⟨.object members, place, roles⟩ = next t ⟨.object others, place, roles⟩ := by
  have hroles := allRoles_eq_of_sameBut hsame hignored place
  rw [next, next, ← hroles]
  exact hsame.flatMap_eq fun value => ofMember_of_ignores hignored value

end Item

/-- The rest of a sweep does not look at what is ignored either. -/
lemma sweep_eq_of_sameBut {place : Location} {roles : List String}
    (hignored : t.Ignores (t.close (.object members) roles) field) (queue : List Item) :
    sweep t (⟨.object members, place, roles⟩ :: queue) = sweep t (⟨.object others, place, roles⟩ :: queue) := by
  rw [sweep, sweep, Item.problems_eq_of_sameBut hsame hignored, Item.next_eq_of_sameBut hsame hignored]

end

namespace RuleSet

/-- The contents of an untyped field are never looked at. Two documents that differ in the value of one member have
the same problems, in the same order, if no rule of the roles that the first one plays reads this value and its
contents are not checked. -/
theorem problems_of_unread_value (rules : RuleSet) {field : String} {members others : List (String × Json)}
    (hsame : SameBut field members others)
    (hignored : rules.tables.Ignores (rules.tables.close (.object members) [rules.root]) field) :
    rules.problems (.object members) = rules.problems (.object others) :=
  sweep_eq_of_sameBut hsame hignored []

/-- The field `meta` may hold anything, but a memo that has it is a tagged one, and a note has nothing else. -/
def taggedMemo : String :=
  "\n".intercalate ["This document specifies a JSON object called a \"Memo\".",
    "A Memo with a \"meta\" field is a \"Tagged Memo\".",
    "A Memo whose \"kind\" field's value is \"note\" is a \"Note\".",
    "A Memo MAY have a string field named \"kind\".",
    "A Memo MAY have a field named \"meta\".",
    "A Note MUST have only one of \"meta\" and \"kind\".",
    "A Tagged Memo MUST have a field named \"title\"."]

def taggedMemoRules : RuleSet :=
  ⟨"Memo", RuleTables.insertAll {} [.presence "Memo" "meta" "Tagged Memo",
    .value "Memo" "kind" (.string "note") "Note", .allowed "Memo" "kind",
    .constraint "Memo" (.of (.fieldType "kind" .string false false)), .allowed "Memo" "meta",
    .grandchild "Memo" "meta" "meta", .anyField "meta", .constraint "Note" (.of (.onlyOneOf ["meta", "kind"])),
    .allowed "Tagged Memo" "title", .constraint "Tagged Memo" (.of (.hasField ["title"])),
    .grandchild "Tagged Memo" "title" "title", .anyField "title"]⟩

def taggedMembers (tag : Json) : List (String × Json) :=
  [("kind", .string "note"), ("meta", tag), ("other", .null)]

/-- That the field is there makes the memo a tagged one without a title, and a note with two fields. -/
theorem taggedMemo_unread :
    let tag : Json := .object [("kind", .array [.null])]
    compile taggedMemo = .ok taggedMemoRules ∧ SameBut "meta" (taggedMembers tag) (taggedMembers .null) ∧
    taggedMemoRules.tables.close (.object (taggedMembers tag)) ["Memo"] = ["Memo", "Tagged Memo", "Note"] ∧
    taggedMemoRules.tables.Ignores ["Memo", "Tagged Memo", "Note"] "meta" ∧
    (taggedMemoRules.problems (.object (taggedMembers tag))).map Problem.kind =
      [.hasFieldSingle, .onlyOneOf, .fieldNotAllowed] ∧
    taggedMemoRules.problems (.object (taggedMembers tag)) =
      taggedMemoRules.problems (.object (taggedMembers .null)) := by
  intro tag
  have hsame : SameBut "meta" (taggedMembers tag) (taggedMembers .null) :=
    SameBut.of_replaced [("kind", .string "note")] [("other", .null)] tag .null
  have hclose : taggedMemoRules.tables.close (.object (taggedMembers tag)) ["Memo"] =
      ["Memo", "Tagged Memo", "Note"] := by
    decide +kernel
  have hignored : taggedMemoRules.tables.Ignores ["Memo", "Tagged Memo", "Note"] "meta" := by decide +kernel
  refine ⟨?_, hsame, hclose, hignored, by decide +kernel, ?_⟩
  · rw [compile_eq_chars]
    decide +kernel
  · apply problems_of_unread_value taggedMemoRules hsame
    rwa [← hclose] at hignored

end RuleSet

end ProseSchema
