import Mathlib.Tactic.MkIffOfInductiveProp
import ProseSchema.Proofs.Conforms
import ProseSchema.Proofs.RoleReach
import ProseSchema.StatesLanguage.Rules

/-!
# What the rules say of machines

The rules for state machines are compiled once, and what they say of machines and their states is read off
the tables. From that it follows what an object is like that conforms as a machine or as a state.
-/

namespace ProseSchema.StatesLanguage

/-- The roles that a state takes on by its fields. -/
def stateRoles : List (String × String × Literal × String) :=
  [("State", "End", .bool true, "Terminal State"), ("State", "Type", .string "Pass", "Pass State"),
    ("State", "Type", .string "Succeed", "Succeed State"), ("State", "Type", .string "Fail", "Fail State"),
    ("State", "Type", .string "Task", "Task State"), ("State", "Type", .string "Choice", "Choice State"),
    ("State", "Type", .string "Wait", "Wait State"), ("State", "Type", .string "Parallel", "Parallel State"),
    ("State", "Type", .string "Map", "Map State")]

def stateTypes : List String :=
  ["Pass", "Succeed", "Fail", "Task", "Choice", "Wait", "Parallel", "Map"]

/-- The roles of states without a next one. -/
def finalRoles : List String :=
  ["Terminal State", "Succeed State", "Choice State", "Fail State"]

/-- A state that has no next one: it ends, or its type leaves no next one. -/
def IsFinal (state : Json) : Prop :=
  state.get? "End" = some (.bool true) ∨
    ∃ type ∈ ["Succeed", "Fail", "Choice"], state.get? "Type" = some (.string type)

instance : DecidablePred IsFinal := fun _ =>
  inferInstanceAs (Decidable (_ ∨ _))

/-- What the tables say of machines, of their states, and of the machines inside these. -/
@[mk_iff] structure DescribesMachines (t : RuleTables) : Prop where
  processor : ("Item Processor", "State Machine") ∈ t.isA
  isA : ∀ rule ∈ t.isA, rule.1 ≠ "State"
  presence : ∀ rule ∈ t.presence, rule.1 ≠ "State"
  value : t.value = stateRoles
  statesField : t.Demands "State Machine" "States" .object []
  startField : t.Demands "State Machine" "StartAt" .string []
  typeField : t.Demands "State" "Type" .string []
  types : Constraint.of (.fieldAmong "Type" (stateTypes.map .string)) ∈ t.constraintsOf "State"
  nextField : t.Demands "State" "Next" .string [finalRoles]
  noNext : ∀ role ∈ finalRoles, Constraint.of (.lacksField "Next") ∈ t.constraintsOf role
  allowed : ∀ entry ∈ t.allowed, entry.2 = "States" → entry.1 = "State Machine"
  anyField : ∀ role ∈ t.anyField, role ∉ ["State", "State Machine", "Item Processor"] ∧
    role ∉ stateRoles.map fun rule => rule.2.2.2
  states : t.grandchild.filter (fun entry => entry.2.1 = "States") = [("State Machine", "States", "State")]
  branches : t.grandchild.filter (fun entry => entry.2.1 = "Branches") =
    [("Parallel State", "Branches", "State Machine")]
  iterator : t.child.filter (fun entry => entry.2.1 = "Iterator") =
    [("Map State", "Iterator", "State Machine")]
  itemProcessor : t.child.filter (fun entry => entry.2.1 = "ItemProcessor") =
    [("Map State", "ItemProcessor", "Item Processor")]

instance (t : RuleTables) : Decidable (DescribesMachines t) :=
  decidable_of_iff _ (describesMachines_iff t).symm

/-- A machine with a parallel state and a map state, each with a machine inside. -/
def nestedMachines : Json :=
  .object [("StartAt", .string "Split"), ("States", .object [
    ("Split", .object [("Type", .string "Parallel"), ("Next", .string "Each"), ("Branches", .array [
      .object [("StartAt", .string "Left"), ("States", .object [
        ("Left", .object [("Type", .string "Succeed")])])]])]),
    ("Each", .object [("Type", .string "Map"), ("End", .bool true), ("Iterator", .object [
      ("StartAt", .string "Item"), ("States", .object [
        ("Item", .object [("Type", .string "Pass"), ("End", .bool true)])])])])])]

/-- A machine with a state that is named like the field of the states, and whose next one is no state but a
field of its own. -/
def stateNamedStates : Json :=
  .object [("StartAt", .string "States"), ("States", .object [
    ("States", .object [("Type", .string "Pass"), ("End", .bool false), ("Next", .string "Type"),
      ("Result", .object [("Type", .string "Succeed"), ("Next", .string "Result"),
        ("a", .object [("Next", .string "Next")]), ("b", .object [("Next", .string "End")])])])])]

set_option maxRecDepth 100000 in
/-- What the compilation of the rules gives. It is evaluated only here. -/
lemma rules_evaluated : ∃ text, rulesText.toList = text ∧
    ∃ rules ∈ (RuleSet.ofLines .unlimited (lines text)).toOption, rules.root = "State Machine" ∧
      DescribesMachines rules.tables ∧
      ∀ document ∈ [nestedMachines, stateNamedStates], rules.problems document = [] :=
  ⟨_, String.toList_ofList, by decide +kernel⟩

/-- The rules compile, and say of machines what they should. -/
theorem rules_describeMachines : ∃ rules, StatesLanguage.rules = .ok rules ∧ rules.root = "State Machine" ∧
    DescribesMachines rules.tables ∧
    ∀ document ∈ [nestedMachines, stateNamedStates], rules.problems document = [] := by
  obtain ⟨text, ht, rules, hm, h⟩ := rules_evaluated
  refine ⟨rules, ?_, h⟩
  rw [StatesLanguage.rules, RuleSet.compile, RuleSet.compileWith, ht]
  cases hc : RuleSet.ofLines .unlimited (lines text) with
  | ok found =>
    rw [hc] at hm
    rw [Option.mem_some_iff.mp hm]
  | error _ =>
    rw [hc] at hm
    exact absurd hm (by simp [Except.toOption])

/-! Roles of fields. -/

lemma eraseDups_eq_singleton {α : Type} [BEq α] [LawfulBEq α] {l : List α} {a : α} (ha : a ∈ l)
    (h : ∀ x ∈ l, x = a) : l.eraseDups = [a] := by
  cases l with
  | nil => simp at ha
  | cons b l =>
    obtain rfl : b = a := h b List.mem_cons_self
    have hl : (l.filter fun x => !(x == b)) = [] := by
      apply List.filter_eq_nil_iff.mpr
      intro x hx
      simp [h x (List.mem_cons_of_mem _ hx)]
    rw [List.eraseDups_cons, hl, List.eraseDups_nil]

/-- Where a single entry is about a field, it alone gives the roles of what is in the field. -/
lemma childrenIn_of_filter {entries : List (String × String × String)} {role field childRole : String}
    (h : entries.filter (fun entry => entry.2.1 = field) = [(role, field, childRole)])
    {roles : List String} (hr : role ∈ roles) :
    RuleTables.childrenIn entries roles field = [childRole] := by
  have hf (other : String) : entries.filter (fun entry => entry.1 = other && entry.2.1 = field) =
      [(role, field, childRole)].filter fun entry => entry.1 = other := by
    rw [← h, List.filter_filter]
  have hm (x : String) : x ∈ (roles.flatMap fun other =>
      (entries.filter fun entry => entry.1 = other && entry.2.1 = field).map fun entry => entry.2.2) ↔
      x = childRole := by
    simp only [hf, List.mem_flatMap, List.mem_map, List.mem_filter, List.mem_singleton]
    constructor
    · rintro ⟨_, _, _, ⟨rfl, _⟩, rfl⟩
      rfl
    · rintro rfl
      exact ⟨role, hr, _, ⟨rfl, by simp⟩, rfl⟩
  apply eraseDups_eq_singleton ((hm childRole).mpr rfl)
  intro x hx
  exact (hm x).mp hx

namespace DescribesMachines

variable {t : RuleTables} (h : DescribesMachines t)

include h

/-- The roles of a state are that of a state and those that it takes on by its fields. -/
lemma mem_close_state (node : Json) (role : String) :
    role ∈ t.close node ["State"] ↔ role = "State" ∨
      ∃ field literal, ("State", field, literal, role) ∈ stateRoles ∧
        ∃ value, node.get? field = some value ∧ literal.holds value = true := by
  have hp : ∀ edge ∈ t.presenceEdges node, edge.1 ≠ "State" := by
    rintro ⟨a, b⟩ he
    obtain ⟨field, hf, _⟩ := RuleTables.leads_presenceEdges.mp he
    exact h.presence _ hf
  have hv : ∀ edge ∈ t.valueEdges node, edge.1 = "State" := by
    rintro ⟨a, b⟩ he
    obtain ⟨field, literal, hf, _⟩ := RuleTables.leads_valueEdges.mp he
    have hs : ∀ rule ∈ stateRoles, rule.1 = "State" := by decide
    exact hs _ (h.value ▸ hf)
  rw [RuleTables.mem_close_iff]
  simp only [List.mem_singleton, exists_eq_left, reaches_of_no_edge h.isA, reaches_of_no_edge hp,
    reaches_of_one_source hv, RuleTables.leads_valueEdges, h.value]

lemma mem_close_of_type {node : Json} {type role : String}
    (hr : ("State", "Type", .string type, role) ∈ stateRoles)
    (ht : node.get? "Type" = some (.string type)) : role ∈ t.close node ["State"] :=
  (h.mem_close_state node role).mpr
    (.inr ⟨_, _, hr, _, ht, (Literal.holds_string_iff type _).mpr rfl⟩)

lemma isFinal_iff (node : Json) : (∃ role ∈ finalRoles, role ∈ t.close node ["State"]) ↔ IsFinal node := by
  have hs : ∀ rule ∈ stateRoles, rule.2.2.2 ∈ finalRoles →
      (rule.2.1 = "End" ∧ rule.2.2.1 = .bool true) ∨
        (rule.2.1 = "Type" ∧ ∃ type ∈ ["Succeed", "Fail", "Choice"], rule.2.2.1 = .string type) := by
    decide
  constructor
  · rintro ⟨role, hf, hr⟩
    rcases (h.mem_close_state node role).mp hr with rfl | ⟨field, literal, hm, value, hv, hl⟩
    · exact absurd hf (by decide)
    · rcases hs _ hm hf with ⟨rfl, rfl⟩ | ⟨rfl, type, ht, rfl⟩
      · rw [Literal.holds_bool_iff] at hl
        exact .inl (hl ▸ hv)
      · rw [Literal.holds_string_iff] at hl
        exact .inr ⟨type, ht, hl ▸ hv⟩
  · rintro (he | ⟨type, ht, hv⟩)
    · refine ⟨"Terminal State", by decide, (h.mem_close_state node _).mpr (.inr ?_)⟩
      exact ⟨"End", .bool true, by decide, _, he, (Literal.holds_bool_iff true _).mpr rfl⟩
    · have ha : ∀ type ∈ ["Succeed", "Fail", "Choice"],
          ∃ role ∈ finalRoles, ("State", "Type", Literal.string type, role) ∈ stateRoles := by
        decide
      obtain ⟨role, hf, hm⟩ := ha type ht
      exact ⟨role, hf, h.mem_close_of_type hm hv⟩

variable {fields : List (String × Json)} (hc : Conforms t (.object fields) ["State"])

include hc

lemma state_type : ∃ type ∈ stateTypes, fields.lookup "Type" = some (.string type) := by
  have hs : "State" ∈ t.close (.object fields) ["State"] := (h.mem_close_state _ _).mpr (.inl rfl)
  obtain ⟨value, hv, _⟩ := hc.demanded hs h.typeField (by simp)
  obtain ⟨literal, hl, hh⟩ := hc.requirement hs h.types (by simp [Constraint.of]) value hv
  obtain ⟨type, ht, rfl⟩ := List.mem_map.mp hl
  rw [Literal.holds_string_iff] at hh
  exact ⟨type, ht, hh ▸ hv⟩

/-- A final state has no next one, and any other one has. -/
lemma state_next : (IsFinal (.object fields) → fields.lookup "Next" = none) ∧
    (¬IsFinal (.object fields) → ∃ next, fields.lookup "Next" = some (.string next)) := by
  constructor
  · intro hf
    obtain ⟨role, hm, hr⟩ := (h.isFinal_iff _).mpr hf
    have hl := hc.requirement hr (h.noNext role hm) (by simp [Constraint.of])
    apply Option.eq_none_iff_forall_ne_some.mpr
    intro value hv
    exact hl ⟨value, hv⟩
  · intro hf
    have hs : "State" ∈ t.close (.object fields) ["State"] := (h.mem_close_state _ _).mpr (.inl rfl)
    have he : ∀ excluded ∈ [finalRoles], ∀ other ∈ excluded,
        other ∉ t.close (.object fields) ["State"] := by
      simp only [List.mem_singleton, forall_eq]
      intro other ho hr
      exact hf ((h.isFinal_iff _).mp ⟨other, ho, hr⟩)
    obtain ⟨value, hv, ht⟩ := hc.demanded hs h.nextField he
    obtain ⟨next, rfl⟩ := value.hasType_string_iff.mp ht
    exact ⟨next, hv⟩

/-- No state is a machine itself. -/
lemma state_no_states : fields.lookup "States" = none := by
  apply Option.eq_none_iff_forall_ne_some.mpr
  intro value hv
  obtain ⟨role, hr, ha⟩ := hc.field_allowed (Json.mem_of_lookup hv)
  have hs : role ∈ "State" :: stateRoles.map fun rule => rule.2.2.2 := by
    rcases (h.mem_close_state _ role).mp hr with rfl | ⟨field, literal, hm, _⟩
    · exact List.mem_cons_self
    · exact List.mem_cons_of_mem _ (List.mem_map.mpr ⟨_, hm, rfl⟩)
  rcases ha with ha | ha
  · obtain ⟨h1, h2⟩ := h.anyField role ha
    rcases List.mem_cons.mp hs with rfl | hs
    · exact h1 List.mem_cons_self
    · exact h2 hs
  · obtain rfl := h.allowed _ ha rfl
    exact absurd hs (by decide)

lemma state_branches (ht : fields.lookup "Type" = some (.string "Parallel")) {elements : List Json}
    (hb : ("Branches", .array elements) ∈ fields) :
    ∀ element ∈ elements, Conforms t element ["State Machine"] := by
  have hr : "Parallel State" ∈ t.close (.object fields) ["State"] := h.mem_close_of_type (by decide) ht
  have hg : t.grandchildRoles (t.close (.object fields) ["State"]) "Branches" = ["State Machine"] :=
    childrenIn_of_filter h.branches hr
  have ha : ∀ role ∈ ["State Machine"], role ∉ t.anyField := fun role hm ha =>
    (h.anyField role ha).1 (by simp [List.mem_singleton.mp hm])
  intro element he
  have hi := hc.grandchild hb (by simp [hg]) (by rwa [hg]) he
  rwa [hg] at hi

/-- So are the iterator and the item processor of a map state. -/
lemma state_iterator (ht : fields.lookup "Type" = some (.string "Map")) :
    (∀ value, ("Iterator", value) ∈ fields → Conforms t value ["State Machine"]) ∧
      ∀ value, ("ItemProcessor", value) ∈ fields → Conforms t value ["Item Processor"] := by
  have hr : "Map State" ∈ t.close (.object fields) ["State"] := h.mem_close_of_type (by decide) ht
  have hi : t.childRoles (t.close (.object fields) ["State"]) "Iterator" = ["State Machine"] :=
    childrenIn_of_filter h.iterator hr
  have hp : t.childRoles (t.close (.object fields) ["State"]) "ItemProcessor" = ["Item Processor"] :=
    childrenIn_of_filter h.itemProcessor hr
  constructor
  · intro value hm
    have hv := hc.child hm (by simp [hi])
    rwa [hi] at hv
  · intro value hm
    have hv := hc.child hm (by simp [hp])
    rwa [hp] at hv

omit hc

/-- Both roles that are given to machines make them play the role of a machine. -/
lemma mem_close_machine (node : Json) {given : List String}
    (hg : given = ["State Machine"] ∨ given = ["Item Processor"]) : "State Machine" ∈ t.close node given := by
  rw [RuleTables.mem_close_iff]
  rcases hg with rfl | rfl
  · exact ⟨_, List.mem_cons_self, _, .refl, _, .refl, .refl⟩
  · exact ⟨_, List.mem_cons_self, _, .single h.processor, _, .refl, .refl⟩

lemma machine_fields {given : List String} (hg : given = ["State Machine"] ∨ given = ["Item Processor"])
    (hm : Conforms t (.object fields) given) :
    ∃ states start, fields.lookup "States" = some (.object states) ∧
      fields.lookup "StartAt" = some (.string start) ∧
      ∀ state ∈ states, Conforms t state.2 ["State"] := by
  have hs := h.mem_close_machine (.object fields) hg
  obtain ⟨value, hv, ht⟩ := hm.demanded hs h.statesField (by simp)
  obtain ⟨start, hst, htt⟩ := hm.demanded hs h.startField (by simp)
  obtain ⟨states, rfl⟩ := value.hasType_object_iff.mp ht
  obtain ⟨name, rfl⟩ := start.hasType_string_iff.mp htt
  refine ⟨states, name, hv, hst, ?_⟩
  intro state hstate
  have hgr : t.grandchildRoles (t.close (.object fields) given) "States" = ["State"] :=
    childrenIn_of_filter h.states hs
  have ha : ∀ role ∈ ["State"], role ∉ t.anyField := fun role hq ha =>
    (h.anyField role ha).1 (by simp [List.mem_singleton.mp hq])
  have hin : state.2 ∈ (Json.object states).contents := List.mem_map_of_mem hstate
  have hi := hm.grandchild (Json.mem_of_lookup hv) (by simp [hgr]) (by rwa [hgr]) hin
  rwa [hgr] at hi

end DescribesMachines

end ProseSchema.StatesLanguage
