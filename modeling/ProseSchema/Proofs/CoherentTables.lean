import ProseSchema.Proofs.LevelOrder
import ProseSchema.Proofs.RuleSentences
import ProseSchema.Proofs.SentenceMeaning

/-!
# Coherent tables

The rules that a text compiles to are about roles that the text introduces and about fields that have names.
A field that some rule requires, forbids, types or looks into is always one that its role may have, and so it is
never reported as unknown.
-/

namespace ProseSchema

/-- The fields that the requirement is about. -/
def Requirement.fields : Requirement → List String
  | hasField names => names
  | lacksField name => [name]
  | fieldType field _ _ _ => [field]
  | fieldAmong field _ => [field]
  | fieldRange field _ => [field]
  | onlyOneOf names => names
  | nonEmptyArray field => [field]

/-- Is the requirement a choice between fields? -/
def Requirement.isChoice : Requirement → Bool
  | onlyOneOf _ => true
  | _ => false

/-- The entry is about known roles and about fields that have names, and what it says of a field, but for a
choice between fields, is said of one that its role may have. -/
def Entry.IsCoherent (known : String → Prop) (permitted : String → String → Prop) : Entry → Prop
  | isA role _ => known role
  | presence role _ _ => known role
  | value role _ _ _ => known role
  | child role field _ => known role ∧ permitted role field
  | grandchild role field _ => known role ∧ permitted role field
  | constraint role c =>
    known role ∧ (∀ excluded ∈ c.exclusions, ∀ other ∈ excluded, known other) ∧
    c.requirement.fields ≠ [] ∧ (∀ field ∈ c.requirement.fields, IsQuotable field) ∧
    (c.requirement.isChoice = false → ∀ field ∈ c.requirement.fields, permitted role field)
  | allowed role _ => known role
  | anyField _ => True

namespace RuleTables

/-- The entry stands in the tables. -/
def Has (t : RuleTables) : Entry → Prop
  | .isA role newRole => (role, newRole) ∈ t.isA
  | .presence role field newRole => (role, field, newRole) ∈ t.presence
  | .value role field literal newRole => (role, field, literal, newRole) ∈ t.value
  | .child role field childRole => (role, field, childRole) ∈ t.child
  | .grandchild role field childRole => (role, field, childRole) ∈ t.grandchild
  | .constraint role constraint => (role, constraint) ∈ t.constraints
  | .allowed role field => (role, field) ∈ t.allowed
  | .anyField role => role ∈ t.anyField

lemma has_insert_iff (t : RuleTables) (entry other : Entry) :
    (t.insert entry).Has other ↔ t.Has other ∨ other = entry := by
  cases entry <;> cases other <;> simp [insert, Has]

lemma has_insertAll_iff (t : RuleTables) (entries : List Entry) (other : Entry) :
    (t.insertAll entries).Has other ↔ t.Has other ∨ other ∈ entries := by
  induction entries generalizing t with
  | nil => simp [insertAll]
  | cons entry entries ih =>
    change ((t.insert entry).insertAll entries).Has other ↔ _
    rw [ih, has_insert_iff, List.mem_cons, or_assoc]

lemma not_has_empty (entry : Entry) : ¬RuleTables.Has {} entry := by
  cases entry <;> exact List.not_mem_nil

end RuleTables

/-- The tables of a rule text hold what its sentences enter. -/
lemma RuleSet.has_iff {library : PatternLibrary} {text : String} {rules : RuleSet}
    (h : compileWith library text = .ok rules) (entry : Entry) :
    rules.tables.Has entry ↔ ∃ s ∈ sentences text, entry ∈ s.entries := by
  rw [tables_eq_entries h, RuleTables.has_insertAll_iff, List.mem_flatMap]
  simp [RuleTables.not_has_empty]

/-! What a sentence enters. -/

lemma TypePhrase.fields_of_mem {phrase : TypePhrase} {field : String} {r : Requirement}
    (h : r ∈ phrase.requirements field) : r.fields = [field] ∧ r.isChoice = false := by
  simp only [requirements, List.mem_append, List.mem_singleton] at h
  rcases h with (h | h) | rfl
  · split at h
    · obtain rfl := List.mem_singleton.mp h
      exact ⟨rfl, rfl⟩
    · exact absurd h List.not_mem_nil
  · split at h
    · obtain rfl := List.mem_singleton.mp h
      exact ⟨rfl, rfl⟩
    · exact absurd h List.not_mem_nil
  · exact ⟨rfl, rfl⟩

lemma Predicate.fields_requirement {predicate : Predicate} {field : String} {line : Nat} {r : Requirement}
    (h : predicate.requirement field line = .ok r) : r.fields = [field] ∧ r.isChoice = false := by
  cases predicate with
  | relation relation target =>
    simp only [requirement] at h
    split at h
    · obtain rfl := Except.ok.inj h
      exact ⟨rfl, rfl⟩
    · simp at h
  | oneOf values =>
    obtain rfl := Except.ok.inj h
    exact ⟨rfl, rfl⟩

namespace ConstraintSentence

variable {s : ConstraintSentence}

lemma fields_of_mem_fieldRequirements {line : Nat} {field : String} {rs : List Requirement}
    (h : s.fieldRequirements line field = .ok rs) : ∀ r ∈ rs, r.fields = [field] ∧ r.isChoice = false := by
  obtain ⟨bounds, types, rfl, hsome, hnone, htsome, htnone⟩ := fieldRequirements_eq_ok h
  refine List.forall_mem_append.mpr ⟨?_, ?_⟩
  · cases hp : s.predicate with
    | none => simp [hnone hp]
    | some predicate =>
      obtain ⟨r, hr, rfl⟩ := hsome predicate hp
      exact List.forall_mem_singleton.mpr (predicate.fields_requirement hr)
  · cases ht : s.type with
    | none => simp [htnone ht]
    | some phrase =>
      rw [htsome phrase ht]
      exact fun r hr => phrase.fields_of_mem hr

/-- A sentence requires something of its own fields only. -/
lemma fields_of_mem (hne : s.fields.names ≠ []) {line : Nat} {rs : List Requirement}
    (h : s.requirements line = .ok rs) :
    ∀ r ∈ rs, r.isChoice = false ∧ r.fields ≠ [] ∧ ∀ field ∈ r.fields, field ∈ s.fields.names := by
  obtain ⟨ofFields, hm, h⟩ := ok_of_bind_eq_ok h
  obtain rfl := Except.ok.inj h
  refine List.forall_mem_append.mpr ⟨?_, ?_⟩
  · have hall : ∀ name ∈ s.fields.names, ∃ rs, s.fieldRequirements line name = .ok rs ∧ True :=
      (forall_mem_mapM_iff hm (P := fun _ => True)).mp fun _ _ => trivial
    rw [List.forall_mem_flatten, forall_mem_mapM_iff hm]
    intro name hn
    obtain ⟨rs, hr, _⟩ := hall name hn
    refine ⟨rs, hr, ?_⟩
    intro r hmem
    obtain ⟨hf, hc⟩ := fields_of_mem_fieldRequirements hr r hmem
    rw [hf]
    exact ⟨hc, List.cons_ne_nil _ _, List.forall_mem_singleton.mpr hn⟩
  · intro r hr
    unfold modalRequirements at hr
    split at hr
    · obtain rfl := List.mem_singleton.mp hr
      exact ⟨rfl, hne, fun _ h => h⟩
    · obtain ⟨name, hn, rfl⟩ := List.mem_map.mp hr
      exact ⟨rfl, List.cons_ne_nil _ _, List.forall_mem_singleton.mpr hn⟩
    · exact absurd hr List.not_mem_nil

lemma exclusions_exclude (r : Requirement) (excluded : List String) :
    ∀ roles ∈ ((Constraint.of r).exclude excluded).exclusions, roles = excluded := by
  unfold Constraint.exclude
  split <;> simp [Constraint.of]

/-- What a sentence says of the value of a field, or of what is inside it, is about one of its fields. -/
lemma coherent_childEntries {known : String → Prop} {permitted : String → String → Prop} (hrole : known s.role)
    (hp : ∀ field ∈ s.fields.names, permitted s.role field) :
    ∀ entry ∈ s.childEntries, entry.IsCoherent known permitted := by
  unfold childEntries
  split
  · rw [List.forall_mem_map]
    exact fun field hf => ⟨hrole, hp field hf⟩
  · rw [List.forall_mem_map]
    exact fun field hf => ⟨hrole, hp field hf⟩
  · next field _ hfields =>
    split
    · rw [List.forall_mem_cons, List.forall_mem_singleton]
      exact ⟨⟨hrole, hp field (by simp [hfields, FieldNames.names])⟩, trivial⟩
    · exact List.forall_mem_nil _
  · exact List.forall_mem_nil _

lemma coherent_entriesFor {known : String → Prop} {permitted : String → String → Prop} {line : Nat}
    {rs : List Requirement} (h : s.requirements line = .ok rs) (hs : Sentence.SpeaksOf known (.constraint s))
    (hp : ∀ role field, .allowed role field ∈ s.entriesFor rs → permitted role field) :
    ∀ entry ∈ s.entriesFor rs, entry.IsCoherent known permitted := by
  obtain ⟨hrole, hexcluded, hne, hquotable⟩ := hs
  have hfields : ∀ field ∈ s.fields.names, permitted s.role field := by
    intro field hf
    refine hp s.role field ?_
    simp [entriesFor, hf]
  unfold entriesFor
  simp only [List.forall_mem_append, List.forall_mem_map]
  refine ⟨⟨fun _ _ => hrole, ?_⟩, coherent_childEntries hrole hfields⟩
  intro r hr
  obtain ⟨_, hrne, hown⟩ := fields_of_mem hne h r hr
  refine ⟨hrole, ?_, ?_⟩
  · intro roles hx
    rw [exclusions_exclude r s.excluded roles hx]
    exact hexcluded
  · rw [exclude_requirement]
    exact ⟨hrne, fun field hf => hquotable field (hown field hf),
      fun _ field hf => hfields field (hown field hf)⟩

end ConstraintSentence

lemma Sentence.coherent_entries {known : String → Prop} {permitted : String → String → Prop} {s : Sentence}
    (hs : s.SpeaksOf known) (hp : ∀ role field, .allowed role field ∈ s.entries → permitted role field) :
    ∀ entry ∈ s.entries, entry.IsCoherent known permitted := by
  cases s with
  | constraint s =>
    simp only [entries, ConstraintSentence.entries] at hp ⊢
    cases hr : s.requirements 0 with
    | error e => exact List.forall_mem_nil _
    | ok rs =>
      rw [hr] at hp
      exact ConstraintSentence.coherent_entriesFor hr hs hp
  | onlyOneOf role fields =>
    refine List.forall_mem_singleton.mpr ⟨hs.1, List.forall_mem_nil _, hs.2.1, hs.2.2, ?_⟩
    intro hc
    exact absurd hc (by simp [Constraint.of, Requirement.isChoice])
  | eachOf roles trailer => exact List.forall_mem_nil _
  | roleDefinition d =>
    refine List.forall_mem_singleton.mpr ?_
    unfold RoleDefinition.entry
    split <;> exact hs

/-! Fields that are reported. -/

namespace Requirement

variable {name : String} {other place : Location}

lemma unknownField_not_mem_elements {type : JsonType} {start : Nat} {elements : List Json} :
    .unknownField name other ∉ elementProblems type place start elements := by
  induction elements generalizing start with
  | nil => exact List.not_mem_nil
  | cons element elements ih =>
    rw [elementProblems, List.mem_append, not_or]
    refine ⟨?_, ih⟩
    unfold typeProblems
    split <;> simp

lemma unknownField_not_mem_fieldType {type : JsonType} {inArray nullable : Bool} {value : Json} :
    .unknownField name other ∉ fieldTypeProblems type inArray nullable value place := by
  unfold fieldTypeProblems
  split
  · split <;> simp
  · split
    · split
      · exact unknownField_not_mem_elements
      · simp
    · unfold typeProblems
      split <;> simp

/-- No requirement reports a field as unknown. -/
lemma unknownField_not_mem_problems (r : Requirement) (node : Json) :
    .unknownField name other ∉ r.problems node place := by
  cases r with
  | hasField names =>
    simp only [problems]
    split
    · exact List.not_mem_nil
    · split <;> simp
  | fieldType field type inArray nullable =>
    simp only [problems]
    split
    · exact unknownField_not_mem_fieldType
    · exact List.not_mem_nil
  | fieldRange field range =>
    simp only [problems]
    split
    · unfold rangeProblems
      split <;> simp
    · exact List.not_mem_nil
  | fieldAmong field allowed =>
    simp only [problems]
    split
    · split <;> simp
    · exact List.not_mem_nil
  | _ =>
    simp only [problems]
    split <;> simp

end Requirement

lemma Item.unknownField_mem_problems_iff {t : RuleTables} {item : Item} {name : String} :
    .unknownField name item.place ∈ item.problems t ↔
      (∃ value, (name, value) ∈ item.node.members) ∧ t.allows (item.allRoles t) name = false := by
  have hc : .unknownField name item.place ∉ item.constraintProblems t := by
    simp [constraintProblems, Requirement.unknownField_not_mem_problems]
  rw [problems, List.mem_append, unknownFields_eq]
  simp only [hc, false_or, List.mem_map, List.mem_filter, Bool.not_eq_true', Problem.unknownField.injEq,
    and_true]
  constructor
  · rintro ⟨⟨_, value⟩, ⟨hm, ha⟩, rfl⟩
    exact ⟨⟨value, hm⟩, ha⟩
  · rintro ⟨⟨value, hm⟩, ha⟩
    exact ⟨(name, value), ⟨hm, ha⟩, rfl⟩

namespace RuleSet

/-- In the tables of a rule text every rule is about roles that the text introduces, and no constraint is about
no field or about one without a name. Of a field that a rule requires, forbids, bounds, types or looks into, the
tables also say that its role may have it, so it is reported as unknown for no node of that role. -/
theorem compile_coherent {library : PatternLibrary} {text : String} {rules : RuleSet}
    (h : compileWith library text = .ok rules) :
    (∀ entry, rules.tables.Has entry → entry.IsCoherent (Introduced rules.root (sentences text))
      fun role field => rules.tables.allows [role] field = true) ∧
    ∀ item : Item, ∀ role ∈ item.allRoles rules.tables, ∀ c ∈ rules.tables.constraintsOf role,
      c.requirement.isChoice = false → ∀ field ∈ c.requirement.fields,
        .unknownField field item.place ∉ item.problems rules.tables := by
  have hcoherent : ∀ entry, rules.tables.Has entry → entry.IsCoherent
      (Introduced rules.root (sentences text)) fun role field => rules.tables.allows [role] field = true := by
    intro entry he
    obtain ⟨s, hs, he⟩ := (has_iff h entry).mp he
    refine Sentence.coherent_entries (speaksOf_introduced h s hs) ?_ entry he
    intro role field ha
    have hallowed : (role, field) ∈ rules.tables.allowed :=
      (has_iff h (.allowed role field)).mpr ⟨s, hs, ha⟩
    exact (RuleTables.allows_iff _ _ _).mpr ⟨role, List.mem_singleton.mpr rfl, .inr hallowed⟩
  refine ⟨hcoherent, ?_⟩
  intro item role hrole c hc hchoice field hf hunknown
  have he : (role, c) ∈ rules.tables.constraints := by
    obtain ⟨entry, hentry, rfl⟩ := List.mem_map.mp hc
    obtain ⟨hmem, hr⟩ := List.mem_filter.mp hentry
    obtain rfl : entry.1 = role := by simpa using hr
    exact hmem
  have hallows := (hcoherent (.constraint role c) he).2.2.2.2 hchoice field hf
  obtain ⟨other, ho, hmay⟩ := (RuleTables.allows_iff _ _ _).mp hallows
  obtain rfl := List.mem_singleton.mp ho
  have hall : rules.tables.allows (item.allRoles rules.tables) field = true :=
    (RuleTables.allows_iff _ _ _).mpr ⟨other, hrole, hmay⟩
  rw [(Item.unknownField_mem_problems_iff.mp hunknown).2] at hall
  exact absurd hall (by simp)

def order : String :=
  "\n".intercalate ["This document specifies a JSON object called an \"Order\".",
    "An Order MUST have an object-array field named \"lines\"; each element is a \"Line\".",
    "A Line with a \"discount\" field is a \"Discounted\".",
    "Each of an Order and a Line MAY have a string field named \"note\".",
    "A Line which is not a Discounted MUST have an integer field named \"count\".",
    "A Discounted MUST have only one of \"percent\" and \"amount\"."]

def orderRules : RuleSet :=
  ⟨"Order", RuleTables.insertAll {} [
    .allowed "Order" "lines", .constraint "Order" (.of (.fieldType "lines" .object true false)),
    .constraint "Order" (.of (.hasField ["lines"])), .grandchild "Order" "lines" "Line",
    .presence "Line" "discount" "Discounted",
    .allowed "Order" "note", .constraint "Order" (.of (.fieldType "note" .string false false)),
    .allowed "Line" "note", .constraint "Line" (.of (.fieldType "note" .string false false)),
    .allowed "Line" "count", .constraint "Line" ⟨.fieldType "count" .integer false false, [["Discounted"]]⟩,
    .constraint "Line" ⟨.hasField ["count"], [["Discounted"]]⟩,
    .constraint "Discounted" (.of (.onlyOneOf ["percent", "amount"]))]⟩

theorem order_coherent :
    compile order = .ok orderRules ∧
    (∀ entry, orderRules.tables.Has entry → entry.IsCoherent (Introduced "Order" (sentences order))
      fun role field => orderRules.tables.allows [role] field = true) ∧
    ∀ item : Item, "Line" ∈ item.allRoles orderRules.tables →
      .unknownField "count" item.place ∉ item.problems orderRules.tables := by
  have h : compile order = .ok orderRules := by
    rw [compile_eq_chars]
    decide +kernel
  obtain ⟨hcoherent, hreports⟩ := compile_coherent h
  refine ⟨h, hcoherent, ?_⟩
  intro item hrole
  exact hreports item "Line" hrole ⟨.hasField ["count"], [["Discounted"]]⟩ (by decide +kernel) rfl "count"
    (List.mem_singleton.mpr rfl)

end RuleSet

end ProseSchema
