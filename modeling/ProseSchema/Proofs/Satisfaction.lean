import ProseSchema.Json.Lemmas
import ProseSchema.Constraint

/-!
# Satisfied requirements

What a requirement asks of a node, said without the problems that are reported where it is not met. Main
statement: a requirement has no problem with a node exactly when the node satisfies it, wherever the node
stands.
-/

namespace ProseSchema

/-- The number is on the right side of every bound that the range has. -/
structure Range.Contains (range : Range) (x : Binary64) : Prop where
  equalTo : ∀ bound, range.equalTo = some bound → x.rank = bound.rank
  greaterThan : ∀ bound, range.greaterThan = some bound → bound.rank < x.rank
  greaterThanOrEqualTo : ∀ bound, range.greaterThanOrEqualTo = some bound → bound.rank ≤ x.rank
  lessThan : ∀ bound, range.lessThan = some bound → x.rank < bound.rank
  lessThanOrEqualTo : ∀ bound, range.lessThanOrEqualTo = some bound → x.rank ≤ bound.rank

/-- What the requirement asks of a node. -/
def Requirement.Satisfied (node : Json) : Requirement → Prop
  | hasField names => (∀ members, node ≠ .object members) ∨ ∃ name ∈ names, node.Has name
  | lacksField name => ¬node.Has name
  | fieldType field type inArray nullable => ∀ value, node.get? field = some value →
      (value = .null ∧ nullable = true) ∨
      (value ≠ .null ∧
        if inArray then ∃ elements, value = .array elements ∧ ∀ element ∈ elements, element.hasType type
        else value.hasType type)
  | fieldAmong field allowed => ∀ value, node.get? field = some value →
      ∃ literal ∈ allowed, literal.holds value
  | fieldRange field range => ∀ number, node.get? field = some (.number number) →
      range.Contains number.toBinary64
  | onlyOneOf names => (∀ members, node ≠ .object members) ∨
      names.Pairwise fun a b => ¬(node.Has a ∧ node.Has b)
  | nonEmptyArray field => node.get? field ≠ some (.array [])

lemma Literal.holds_string_iff (text : String) (value : Json) :
    (Literal.string text).holds value = true ↔ value = .string text := by
  cases value <;> simp [Literal.holds]

lemma Literal.holds_bool_iff (b : Bool) (value : Json) :
    (Literal.bool b).holds value = true ↔ value = .bool b := by
  cases value <;> simp [Literal.holds]

lemma countP_le_one_iff {α : Type} (p : α → Bool) (l : List α) :
    l.countP p ≤ 1 ↔ l.Pairwise fun a b => ¬(p a = true ∧ p b = true) := by
  induction l with
  | nil => simp
  | cons a l ih =>
    rw [List.pairwise_cons, ← ih]
    by_cases ha : p a = true
    · have h0 : l.countP p + 1 ≤ 1 ↔ l.countP p = 0 := by omega
      rw [List.countP_cons_of_pos ha, h0, List.countP_eq_zero]
      constructor
      · intro h
        constructor
        · intro b hb hab
          exact h b hb hab.2
        · rw [List.countP_eq_zero.mpr h]
          omega
      · intro h b hb hpb
        exact h.1 b hb ⟨ha, hpb⟩
    · rw [List.countP_cons_of_neg ha]
      constructor
      · intro h
        refine ⟨?_, h⟩
        intro b _ hab
        exact ha hab.1
      · intro h
        exact h.2

namespace Range

/-- The list of bounds says no more and no less than the bounds themselves. -/
lemma forall_bounds_iff (range : Range) (x : Binary64) :
    (∀ bound ∈ range.bounds, bound.1.holds x bound.2 = true) ↔ range.Contains x := by
  have key (relation : Relation) (bound : Option Binary64) :
      (∀ b ∈ (bound.map (relation, ·)).toList, b.1.holds x b.2 = true) ↔
        ∀ b, bound = some b → relation.holds x b = true := by
    cases bound <;> simp
  simp only [bounds, List.mem_append, or_imp, forall_and, key]
  simp only [Relation.holds, decide_eq_true_eq]
  constructor
  · rintro ⟨⟨⟨⟨h1, h2⟩, h3⟩, h4⟩, h5⟩
    exact ⟨h1, h2, h3, h4, h5⟩
  · rintro ⟨h1, h2, h3, h4, h5⟩
    exact ⟨⟨⟨⟨h1, h2⟩, h3⟩, h4⟩, h5⟩

end Range

namespace Requirement

lemma typeProblems_eq_nil_iff (type : JsonType) (value : Json) (place : Location) :
    typeProblems type value place = [] ↔ value.hasType type = true := by
  unfold typeProblems
  split <;> simp_all

lemma elementProblems_eq_nil_iff (type : JsonType) (place : Location) (start : Nat)
    (elements : List Json) :
    elementProblems type place start elements = [] ↔
      ∀ element ∈ elements, element.hasType type = true := by
  induction elements generalizing start with
  | nil => simp [elementProblems]
  | cons element elements ih =>
    rw [elementProblems, List.append_eq_nil_iff, typeProblems_eq_nil_iff, ih, List.forall_mem_cons]

lemma fieldTypeProblems_eq_nil_iff (type : JsonType) (inArray nullable : Bool) (value : Json)
    (place : Location) :
    fieldTypeProblems type inArray nullable value place = [] ↔
      (value = .null ∧ nullable = true) ∨
      (value ≠ .null ∧
        if inArray then ∃ elements, value = .array elements ∧ ∀ element ∈ elements, element.hasType type
        else value.hasType type) := by
  unfold fieldTypeProblems
  by_cases hn : value = .null
  · subst hn
    cases nullable <;> simp [Json.isNull]
  · have hb : ¬value.isNull = true := fun h => hn (value.isNull_iff.mp h)
    rw [if_neg hb]
    cases inArray with
    | false => simp [hn, typeProblems_eq_nil_iff]
    | true => cases value <;> simp_all [elementProblems_eq_nil_iff]

lemma rangeProblems_eq_nil_iff (range : Range) (field : String) (value : Json) (place : Location) :
    rangeProblems range field value place = [] ↔
      ∀ number, value = .number number → range.Contains number.toBinary64 := by
  cases value with
  | number n =>
    rw [rangeProblems, List.map_eq_nil_iff, List.filter_eq_nil_iff]
    simp [← Range.forall_bounds_iff]
  | _ => simp [rangeProblems]

lemma forall_ne_object_iff (node : Json) :
    (∀ members, node ≠ .object members) ↔ ¬node.hasType .object = true := by
  rw [node.hasType_object_iff, not_exists]

/-- A requirement reports nothing exactly when the node satisfies it. -/
theorem problems_eq_nil_iff (requirement : Requirement) (node : Json) (place : Location) :
    requirement.problems node place = [] ↔ requirement.Satisfied node := by
  cases requirement with
  | hasField names =>
    simp only [problems, Satisfied, forall_ne_object_iff]
    split
    · next h => simpa using h
    · next h =>
      have hs : ¬(¬node.hasType .object = true ∨ ∃ name ∈ names, node.Has name) := by simpa using h
      exact iff_of_false (by split <;> simp) hs
  | lacksField name =>
    simp only [problems, Satisfied, ← Json.hasField_iff]
    split <;> simp_all
  | fieldType field type inArray nullable =>
    simp only [problems, Satisfied]
    cases node.get? field with
    | none => simp
    | some value => simp [fieldTypeProblems_eq_nil_iff]
  | fieldAmong field allowed =>
    simp only [problems, Satisfied]
    cases node.get? field with
    | none => simp
    | some value =>
      simp only [Option.some.injEq, forall_eq', ← List.any_eq_true]
      split <;> simp_all
  | fieldRange field range =>
    simp only [problems, Satisfied]
    cases node.get? field with
    | none => simp
    | some value => simp [rangeProblems_eq_nil_iff]
  | onlyOneOf names =>
    have hc := countP_le_one_iff (node.hasField ·) names
    simp only [Json.hasField_iff] at hc
    simp only [problems, Satisfied, forall_ne_object_iff, ← hc]
    split
    · next h =>
      obtain ⟨h1, h2⟩ : node.hasType .object = true ∧ 1 < names.countP (node.hasField ·) := by
        simpa using h
      simp [h1, h2]
    · next h =>
      simp only [Bool.and_eq_true, decide_eq_true_eq, not_and, Nat.not_lt] at h
      simpa [Classical.or_iff_not_imp_left] using h
  | nonEmptyArray field =>
    simp only [problems, Satisfied]
    split <;> simp_all

/-- A field that has to be there and to have a type is there and has the type. -/
lemma exists_typed_field {members : List (String × Json)} {field : String} {type : JsonType}
    (hp : (hasField [field]).Satisfied (.object members))
    (ht : (fieldType field type false false).Satisfied (.object members)) :
    ∃ value, members.lookup field = some value ∧ value.hasType type = true := by
  obtain ⟨value, hv⟩ : Json.Has (.object members) field := by
    rcases hp with hn | ⟨name, hm, hh⟩
    · exact absurd rfl (hn members)
    · rwa [← List.mem_singleton.mp hm]
  rcases ht value hv with ⟨_, hn⟩ | ⟨_, hv'⟩
  · exact absurd hn (by simp)
  · exact ⟨value, hv, hv'⟩

end Requirement

end ProseSchema
