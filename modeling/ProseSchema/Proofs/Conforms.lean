import ProseSchema.Proofs.Satisfaction
import ProseSchema.Conformance

/-!
# Conformance as a recursive property

`Conforms t node given` reads the rule tables from the top down: it says what a node with the given roles
has to be like, and what is inside it. The queue that the check works through does not occur in it. Main
statement: a document has no problem with respect to some rules exactly when it conforms in the role of the
root.
-/

namespace ProseSchema

/-- The field has to be there and of the type, in nodes of the role that play no excluded one. -/
def RuleTables.Demands (t : RuleTables) (role field : String) (type : JsonType)
    (exclusions : List (List String)) : Prop :=
  ⟨.hasField [field], exclusions⟩ ∈ t.constraintsOf role ∧
    ⟨.fieldType field type false false, exclusions⟩ ∈ t.constraintsOf role

instance (t : RuleTables) (role field : String) (type : JsonType) (exclusions : List (List String)) :
    Decidable (t.Demands role field type exclusions) :=
  inferInstanceAs (Decidable (_ ∧ _))

/-- The node and all inside it are as the rules say, given some roles of the node. -/
inductive Conforms (t : RuleTables) : Json → List String → Prop
  | intro {node : Json} {given : List String} (roles : List String)
    (closed : t.close node given = roles)
    (satisfied : ∀ role ∈ roles, ∀ constraint ∈ t.constraintsOf role,
      (∀ excluded ∈ constraint.exclusions, ∀ other ∈ excluded, other ∉ roles) →
      constraint.requirement.Satisfied node)
    (allowed : ∀ member ∈ node.members,
      ∃ role ∈ roles, role ∈ t.anyField ∨ (role, member.1) ∈ t.allowed)
    (children : ∀ member ∈ node.members, t.childRoles roles member.1 ≠ [] →
      Conforms t member.2 (t.childRoles roles member.1))
    (grandchildren : ∀ member ∈ node.members, t.grandchildRoles roles member.1 ≠ [] →
      (∀ role ∈ t.grandchildRoles roles member.1, role ∉ t.anyField) →
      ∀ value ∈ member.2.contents, Conforms t value (t.grandchildRoles roles member.1)) :
    Conforms t node given

namespace Conforms

variable {t : RuleTables} {node : Json} {given : List String}

lemma requirement (h : Conforms t node given) {role : String} (hr : role ∈ t.close node given)
    {constraint : Constraint} (hc : constraint ∈ t.constraintsOf role)
    (he : ∀ excluded ∈ constraint.exclusions, ∀ other ∈ excluded, other ∉ t.close node given) :
    constraint.requirement.Satisfied node := by
  obtain ⟨_, rfl, satisfied, _, _, _⟩ := h
  exact satisfied role hr constraint hc he

/-- A field that a role demands, with its type, is there and of that type. -/
lemma demanded {members : List (String × Json)} (h : Conforms t (.object members) given) {role : String}
    (hr : role ∈ t.close (.object members) given) {field : String} {type : JsonType}
    {exclusions : List (List String)} (hd : t.Demands role field type exclusions)
    (he : ∀ excluded ∈ exclusions, ∀ other ∈ excluded, other ∉ t.close (.object members) given) :
    ∃ value, members.lookup field = some value ∧ value.hasType type = true :=
  Requirement.exists_typed_field (h.requirement hr hd.1 he) (h.requirement hr hd.2 he)

lemma field_allowed (h : Conforms t node given) {name : String} {value : Json}
    (hm : (name, value) ∈ node.members) :
    ∃ role ∈ t.close node given, role ∈ t.anyField ∨ (role, name) ∈ t.allowed := by
  obtain ⟨_, rfl, _, allowed, _, _⟩ := h
  exact allowed _ hm

lemma child (h : Conforms t node given) {name : String} {value : Json} (hm : (name, value) ∈ node.members)
    (hr : t.childRoles (t.close node given) name ≠ []) :
    Conforms t value (t.childRoles (t.close node given) name) := by
  obtain ⟨_, rfl, _, _, children, _⟩ := h
  exact children _ hm hr

lemma grandchild (h : Conforms t node given) {name : String} {value : Json}
    (hm : (name, value) ∈ node.members) (hr : t.grandchildRoles (t.close node given) name ≠ [])
    (ha : ∀ role ∈ t.grandchildRoles (t.close node given) name, role ∉ t.anyField) {inner : Json}
    (hi : inner ∈ value.contents) : Conforms t inner (t.grandchildRoles (t.close node given) name) := by
  obtain ⟨_, rfl, _, _, _, grandchildren⟩ := h
  exact grandchildren _ hm hr ha inner hi

end Conforms

lemma Constraint.applies_iff (constraint : Constraint) (roles : List String) :
    constraint.applies roles = true ↔
      ∀ excluded ∈ constraint.exclusions, ∀ other ∈ excluded, other ∉ roles := by
  simp [applies]

namespace RuleTables

lemma allowsAny_iff (t : RuleTables) (roles : List String) :
    t.allowsAny roles = true ↔ ∃ role ∈ roles, role ∈ t.anyField := by
  simp [allowsAny]

lemma allows_iff (t : RuleTables) (roles : List String) (field : String) :
    t.allows roles field = true ↔
      ∃ role ∈ roles, role ∈ t.anyField ∨ (role, field) ∈ t.allowed := by
  simp only [allows, Bool.or_eq_true, allowsAny_iff, List.any_eq_true, List.contains_iff_mem,
    and_or_left, exists_or]

end RuleTables

namespace Item

variable (t : RuleTables)

lemma constraintProblems_eq_nil_iff (item : Item) :
    item.constraintProblems t = [] ↔
      ∀ role ∈ item.allRoles t, ∀ constraint ∈ t.constraintsOf role,
        (∀ excluded ∈ constraint.exclusions, ∀ other ∈ excluded, other ∉ item.allRoles t) →
        constraint.requirement.Satisfied item.node := by
  simp only [constraintProblems, List.flatMap_eq_nil_iff, List.mem_eraseDups, List.mem_filter,
    Constraint.applies_iff, Requirement.problems_eq_nil_iff, and_imp]

lemma unknownFields_eq_nil_iff (item : Item) :
    item.unknownFields t = [] ↔
      ∀ member ∈ item.node.members,
        ∃ role ∈ item.allRoles t, role ∈ t.anyField ∨ (role, member.1) ∈ t.allowed := by
  obtain ⟨node, place, roles⟩ := item
  cases node with
  | object members =>
    simp only [unknownFields, List.map_eq_nil_iff, List.filter_eq_nil_iff, Bool.not_eq_true',
      Bool.not_eq_false, RuleTables.allows_iff, Json.members]
  | _ => simp [unknownFields, Json.members]

lemma forall_mem_ofElements {P : Json → List String → Prop} (place : Location) (roles : List String)
    (start : Nat) (elements : List Json) :
    (∀ item ∈ ofElements place roles start elements, P item.node item.roles) ↔
      ∀ element ∈ elements, P element roles := by
  induction elements generalizing start with
  | nil => simp [ofElements]
  | cons element elements ih => rw [ofElements, List.forall_mem_cons, ih, List.forall_mem_cons]

lemma forall_mem_inside {P : Json → List String → Prop} (place : Location) (roles : List String)
    (value : Json) :
    (∀ item ∈ inside place roles value, P item.node item.roles) ↔ ∀ v ∈ value.contents, P v roles := by
  cases value with
  | object members => simp only [inside, Json.contents, List.forall_mem_map]
  | array elements => exact forall_mem_ofElements place roles 0 elements
  | _ => simp [inside, Json.contents]

lemma forall_mem_ofMember {P : Json → List String → Prop} (place : Location) (roles : List String)
    (member : String × Json) :
    (∀ item ∈ ofMember t place roles member, P item.node item.roles) ↔
      (t.childRoles roles member.1 ≠ [] → P member.2 (t.childRoles roles member.1)) ∧
      (t.grandchildRoles roles member.1 ≠ [] →
        (∀ role ∈ t.grandchildRoles roles member.1, role ∉ t.anyField) →
        ∀ value ∈ member.2.contents, P value (t.grandchildRoles roles member.1)) := by
  unfold ofMember
  simp only [List.forall_mem_append]
  refine and_congr ?_ ?_
  · split <;> simp_all
  · have ha : t.allowsAny (t.grandchildRoles roles member.1) = true ↔
        ¬∀ role ∈ t.grandchildRoles roles member.1, role ∉ t.anyField := by
      simp [RuleTables.allowsAny_iff]
    split
    · next h =>
      rw [Bool.or_eq_true, List.isEmpty_iff, ha] at h
      constructor
      · intro _ hne hany
        rcases h with he | hn
        · exact absurd he hne
        · exact absurd hany hn
      · intro _ inner hm
        exact absurd hm (by simp)
    · next h =>
      rw [Bool.or_eq_true, List.isEmpty_iff, ha, not_or, Classical.not_not] at h
      rw [forall_mem_inside]
      constructor
      · intro hv _ _
        exact hv
      · intro hv
        exact hv h.1 h.2

lemma forall_mem_next {P : Json → List String → Prop} (item : Item) :
    (∀ inner ∈ item.next t, P inner.node inner.roles) ↔
      ∀ member ∈ item.node.members,
        (t.childRoles (item.allRoles t) member.1 ≠ [] →
          P member.2 (t.childRoles (item.allRoles t) member.1)) ∧
        (t.grandchildRoles (item.allRoles t) member.1 ≠ [] →
          (∀ role ∈ t.grandchildRoles (item.allRoles t) member.1, role ∉ t.anyField) →
          ∀ value ∈ member.2.contents, P value (t.grandchildRoles (item.allRoles t) member.1)) := by
  obtain ⟨node, place, roles⟩ := item
  cases node with
  | object members =>
    simp only [next, List.mem_flatMap, forall_exists_index, and_imp, Json.members]
    rw [forall_comm]
    apply forall_congr'
    intro member
    rw [← forall_mem_ofMember t place]
    constructor
    · intro h hm inner hi
      exact h inner hm hi
    · intro h inner hm hi
      exact h hm inner hi
  | _ => simp [next, Json.members]

/-- One step of the reading: an item conforms when it has no problem itself and all that it gives rise to
conforms. -/
lemma conforms_iff (item : Item) :
    Conforms t item.node item.roles ↔
      item.problems t = [] ∧ ∀ inner ∈ item.next t, Conforms t inner.node inner.roles := by
  rw [problems, List.append_eq_nil_iff, constraintProblems_eq_nil_iff, unknownFields_eq_nil_iff,
    forall_mem_next]
  constructor
  · rintro ⟨roles, rfl, satisfied, allowed, children, grandchildren⟩
    refine ⟨⟨satisfied, allowed⟩, ?_⟩
    intro member hm
    exact ⟨children member hm, grandchildren member hm⟩
  · rintro ⟨⟨satisfied, allowed⟩, inner⟩
    refine .intro _ rfl satisfied allowed ?_ ?_
    · intro member hm
      exact (inner member hm).1
    · intro member hm
      exact (inner member hm).2

end Item

/-- A queue is swept without a problem exactly when each of its items conforms; in what order the items
are taken makes no difference to this. -/
theorem sweep_eq_nil_iff (t : RuleTables) (queue : List Item) :
    sweep t queue = [] ↔ ∀ item ∈ queue, Conforms t item.node item.roles := by
  induction queue using sweep.induct t with
  | case1 => simp [sweep]
  | case2 item queue ih =>
    rw [sweep, List.append_eq_nil_iff, ih, List.forall_mem_append, List.forall_mem_cons,
      Item.conforms_iff]
    constructor
    · rintro ⟨hp, hq, hn⟩
      exact ⟨⟨hp, hn⟩, hq⟩
    · rintro ⟨⟨hp, hn⟩, hq⟩
      exact ⟨hp, hq, hn⟩

namespace RuleSet

/-- A document has no problem with respect to some rules exactly when it conforms to them. -/
theorem problems_eq_nil_iff_conforms (rules : RuleSet) (document : Json) :
    rules.problems document = [] ↔ Conforms rules.tables document [rules.root] := by
  rw [problems, sweep_eq_nil_iff, List.forall_mem_singleton]
  rfl

end RuleSet

end ProseSchema
