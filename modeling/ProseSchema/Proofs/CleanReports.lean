import Mathlib.Control.Monad.Basic
import ProseSchema.Proofs.Conforms
import ProseSchema.Validator

namespace ProseSchema

open StatesLanguage

section

variable {node : Json} (h : ∀ members, node ≠ .object members)

include h

lemma Json.members_of_not_object : node.members = [] := by
  cases node with
  | object members => exact absurd rfl (h members)
  | _ => rfl

lemma Json.get?_of_not_object (field : String) : node.get? field = none := by
  cases node with
  | object members => exact absurd rfl (h members)
  | _ => rfl

/-- Whatever is required, it is required of objects only. -/
lemma Requirement.satisfied_of_not_object (r : Requirement) : r.Satisfied node := by
  cases r with
  | hasField names => exact .inl h
  | onlyOneOf names => exact .inl h
  | _ => simp [Satisfied, Json.Has, Json.get?_of_not_object h]

lemma Conforms.of_not_object (t : RuleTables) (given : List String) : Conforms t node given := by
  refine .intro _ rfl (fun _ _ constraint _ _ => constraint.requirement.satisfied_of_not_object h) ?_ ?_ ?_ <;>
    simp [Json.members_of_not_object h]

lemma machineProblems_of_not_object (place : Location) : machineProblems node place = [] := by
  cases node with
  | object members => exact absurd rfl (h members)
  | _ => rfl

end

namespace Validator

/-- Nothing is reported exactly when the document is no object at all, or when it conforms to the rules and, if
machines are checked, they have no problem. -/
theorem validate_eq_nil_iff (validator : Validator) (rules : RuleSet) (document : Json) :
    validator.validate rules document = [] ↔ (∀ members, document ≠ .object members) ∨
      (Conforms rules.tables document [rules.root] ∧
        (validator.machineChecks = true → machineProblems document (.ofRoot rules.root) = [])) := by
  have hrules : rules.problems document = [] ↔ Conforms rules.tables document [rules.root] := by
    rw [RuleSet.problems, sweep_eq_nil_iff, List.forall_mem_singleton]
    rfl
  have hmachines (found : List Problem) : (if validator.machineChecks then found else []) = [] ↔
      (validator.machineChecks = true → found = []) := by
    cases validator.machineChecks <;> simp
  rw [validate, List.map_eq_nil_iff, problems, List.append_eq_nil_iff, hrules, hmachines]
  constructor
  · exact .inr
  · rintro (hobject | hclean)
    · exact ⟨.of_not_object hobject _ _, fun _ => machineProblems_of_not_object hobject _⟩
    · exact hclean

/-- The root of the rules has to have a field. -/
def namedDoc : String :=
  "\n".intercalate ["This document specifies a JSON object called a \"Doc\".",
    "A Doc MUST have a string field named \"name\"."]

def namedDocRules : RuleSet :=
  ⟨"Doc", RuleTables.insertAll {} [.allowed "Doc" "name",
    .constraint "Doc" (.of (.fieldType "name" .string false false)),
    .constraint "Doc" (.of (.hasField ["name"]))]⟩

/-- An empty object is reported, an empty array is not. -/
theorem namedDoc_array :
    RuleSet.compile namedDoc = .ok namedDocRules ∧ (∀ members, Json.array [] ≠ .object members) ∧
    Validator.validate {} namedDocRules (.array []) = [] ∧
    Validator.validate {} namedDocRules (.object []) ≠ [] := by
  have h : RuleSet.compile namedDoc = .ok namedDocRules := by
    rw [RuleSet.compile_eq_chars]
    decide +kernel
  refine ⟨h, by simp, ?_, ?_⟩
  · have hp : Validator.problems {} namedDocRules (.array []) = [] := by decide +kernel
    rw [validate, hp, List.map_nil]
  · have hp : Validator.problems {} namedDocRules (.object []) ≠ [] := by decide +kernel
    rw [validate, Ne, List.map_eq_nil_iff]
    exact hp

end Validator

end ProseSchema
