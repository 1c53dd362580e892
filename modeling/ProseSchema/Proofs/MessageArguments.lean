import Mathlib.Data.List.Forall2
import Mathlib.Tactic.Lemma
import ProseSchema.Text.Chars
import ProseSchema.Validator

/-!
# Arguments of messages

A template is taken apart into characters and placeholders, and a message is these with the arguments put in
for the placeholders. The catalog decides nothing but the wording: the kinds of the reports on a document and their
arguments are the same with any other one.
-/

namespace ProseSchema

/-- The names of the arguments of a kind, in order. -/
def ProblemKind.arguments : ProblemKind → List String
  | hasFieldSingle => ["path", "field"]
  | hasFieldMultiple => ["path", "fields"]
  | doesNotHaveField => ["path", "field"]
  | fieldTypeNull => ["path"]
  | fieldType => ["path", "actual types", "expected"]
  | fieldValueEnum => ["path", "field", "value", "allowed values"]
  | fieldValueEqual | fieldValueFloor | fieldValueMin | fieldValueCeiling | fieldValueMax =>
    ["path", "field", "value", "bound"]
  | onlyOneOf => ["path", "fields"]
  | nonEmptyArray => ["path", "field"]
  | fieldNotAllowed => ["field", "path"]
  | missingStartTarget => ["target", "path"]
  | duplicateStateName => ["name", "path", "first definition"]
  | noSuchState => ["target", "path", "field"]
  | unreachableState => ["path", "state name"]
  | noTerminalState => ["path"]
  | nullField => ["field", "path"]
  | invalidPathField => ["field", "path"]
  | invalidPayloadPath => ["key", "builder field", "path"]
  | invalidChoiceVariable => ["path"]
  | statesAllNotLast => ["path", "index"]

lemma Problem.length_args (problem : Problem) : problem.args.length = problem.kind.arguments.length := by
  cases problem with
  | outOfRange place field value relation bound => cases relation <;> rfl
  | _ => rfl

/-- A part of a template: a character, or a number in braces that an argument goes in for. -/
inductive TemplatePiece
  | char (c : Char)
  | argument (digits : List Char) (number : Nat)

namespace TemplatePiece

/-- The piece as it stands in a template. -/
def written : TemplatePiece → List Char
  | char c => [c]
  | argument digits _ => '{' :: digits ++ ['}']

/-- The piece as it stands in a message; a placeholder without an argument is left as written. -/
def filled (args : List String) : TemplatePiece → List Char
  | char c => [c]
  | argument digits number => (args[number]?).elim (argument digits number).written String.toList

/-- A piece that is no brace, or that has its argument among so many. -/
def Answered (count : Nat) : TemplatePiece → Prop
  | char c => c ≠ '{' ∧ c ≠ '}'
  | argument digits number => Catalog.argumentNumber? digits = some number ∧ number < count

instance (count : Nat) : DecidablePred (Answered count)
  | char c => inferInstanceAs (Decidable (c ≠ '{' ∧ c ≠ '}'))
  | argument digits number =>
    inferInstanceAs (Decidable (Catalog.argumentNumber? digits = some number ∧ number < count))

end TemplatePiece

namespace Catalog

open TemplatePiece

/-- The digits and the number of the placeholder whose opening brace stands before a text. -/
def numberInBraces? (text : List Char) : Option (List Char × Nat) :=
  let digits := text.takeWhile (· ≠ '}')
  if digits.length = text.length then none else (argumentNumber? digits).map fun number => (digits, number)

/-- The pieces of a template. `skip` counts the characters of a placeholder that are still to be passed
over. -/
def pieces : (skip : Nat) → List Char → List TemplatePiece
  | _, [] => []
  | skip + 1, _ :: text => pieces skip text
  | 0, c :: text =>
    match if c = '{' then numberInBraces? text else none with
    | some (digits, number) => .argument digits number :: pieces (digits.length + 1) text
    | none => .char c :: pieces 0 text

lemma placeholder?_eq (args : List String) (text : List Char) :
    placeholder? args text =
      (numberInBraces? text).bind fun found => (args[found.2]?).map fun arg => (arg, found.1.length + 1) := by
  unfold placeholder? numberInBraces?
  simp only
  split
  · rfl
  · cases argumentNumber? (text.takeWhile (· ≠ '}')) with
    | none => rfl
    | some number => cases h : args[number]? <;> simp [h]

lemma of_numberInBraces? {text digits : List Char} {number : Nat} (h : numberInBraces? text = some (digits, number)) :
    argumentNumber? digits = some number ∧ ∃ rest, text = digits ++ '}' :: rest := by
  unfold numberInBraces? at h
  simp only [Option.ite_none_left_eq_some, Option.map_eq_some_iff, Prod.mk.injEq] at h
  obtain ⟨hlength, _, hnumber, rfl, rfl⟩ := h
  refine ⟨hnumber, ?_⟩
  have htext := List.takeWhile_append_dropWhile (p := fun c => decide (c ≠ '}')) (l := text)
  cases hrest : text.dropWhile (fun c => decide (c ≠ '}')) with
  | nil =>
    rw [hrest, List.append_nil] at htext
    exact absurd (congrArg List.length htext) hlength
  | cons c rest =>
    have hc : c = '}' := by
      have hhead := List.head?_dropWhile_not (fun c => decide (c ≠ '}')) text
      rw [hrest] at hhead
      simpa using hhead
    rw [hrest, hc] at htext
    exact ⟨rest, htext.symm⟩

/-- A number has no brace in it. -/
lemma not_mem_of_argumentNumber? {digits : List Char} {number : Nat} (h : argumentNumber? digits = some number) :
    '{' ∉ digits := by
  unfold argumentNumber? at h
  split at h <;> grind

lemma fill_drop (args : List String) : ∀ (skip : Nat) (text : List Char),
    fill args skip text = fill args 0 (text.drop skip)
  | 0, _ => rfl
  | _ + 1, [] => by simp [fill]
  | skip + 1, _ :: text => by
    rw [fill, fill_drop args skip text]
    rfl

lemma fill_append (args : List String) {text : List Char} (h : '{' ∉ text) (rest : List Char) :
    fill args 0 (text ++ rest) = text ++ fill args 0 rest := by
  induction text with
  | nil => rfl
  | cons c text ih =>
    obtain ⟨hc, htext⟩ := not_or.mp (mt List.mem_cons.mpr h)
    rw [List.cons_append, fill, if_neg (Ne.symm hc)]
    exact congrArg (c :: ·) (ih htext)

/-- Filling a template in is filling its pieces in. -/
theorem fill_eq_filled (args : List String) (skip : Nat) (text : List Char) :
    fill args skip text = (pieces skip text).flatMap (filled args) := by
  induction text generalizing skip with
  | nil => cases skip <;> rfl
  | cons c text ih =>
    cases skip with
    | succ skip => exact ih skip
    | zero =>
      rw [fill, pieces]
      by_cases hc : c = '{'
      · rw [if_pos hc, if_pos hc, placeholder?_eq]
        cases hfound : numberInBraces? text with
        | none => exact congrArg (c :: ·) (ih 0)
        | some found =>
          obtain ⟨digits, number⟩ := found
          simp only [Option.bind_some, List.flatMap_cons, ← ih, filled]
          cases args[number]? with
          | some arg => rfl
          | none =>
            -- The brace is copied, and the rest of the placeholder after it holds no other one.
            obtain ⟨hnumber, rest, rfl⟩ := of_numberInBraces? hfound
            have hbrace : '{' ∉ digits ++ ['}'] := by simp [not_mem_of_argumentNumber? hnumber]
            simp only [Option.map_none, Option.elim_none, written]
            rw [fill_drop args (digits.length + 1), List.append_cons, fill_append args hbrace,
              List.drop_left' (by simp), hc]
            rfl
      · rw [if_neg hc, if_neg hc]
        exact congrArg (c :: ·) (ih 0)

lemma fill_nil (text : List Char) : fill [] 0 text = text := by
  induction text with
  | nil => rfl
  | cons c text ih =>
    have hnone : placeholder? [] text = none := by simp [placeholder?_eq]
    rw [fill, hnone, ite_self]
    exact congrArg (c :: ·) ih

/-- The pieces of a template make up the template. -/
lemma flatMap_written_pieces (text : List Char) : (pieces 0 text).flatMap written = text := by
  have hwritten : written = filled [] := by
    funext piece
    cases piece <;> rfl
  rw [hwritten, ← fill_eq_filled, fill_nil]

/-- An English message asks for no argument that its kind does not have. -/
lemma answered_english (kind : ProblemKind) :
    ∀ piece ∈ pieces 0 kind.english.toList, piece.Answered kind.arguments.length := by
  rw [← chars_eq_toList]
  cases kind <;> decide +kernel

end Catalog

namespace Validator

variable (a b : Catalog) (machineChecks : Bool) (rules : RuleSet) (document : Json)

lemma validate_forall₂ :
    List.Forall₂ (fun r s : Report => r.kind = s.kind ∧ r.args = s.args)
      (validate ⟨a, machineChecks⟩ rules document) (validate ⟨b, machineChecks⟩ rules document) := by
  rw [validate, validate, List.forall₂_map_left_iff, List.forall₂_map_right_iff]
  exact List.forall₂_same.mpr fun _ _ => ⟨rfl, rfl⟩

lemma validate_append :
    validate ⟨a, true⟩ rules document = validate ⟨a, false⟩ rules document ++
      (StatesLanguage.machineProblems document (.ofRoot rules.root)).map a.report := by
  simp [validate, problems]

variable {a machineChecks rules document}

lemma message_of_mem_validate {r : Report} (h : r ∈ validate ⟨a, machineChecks⟩ rules document) :
    r.message = a.render r.kind r.args := by
  obtain ⟨problem, _, rfl⟩ := List.mem_map.mp h
  rfl

lemma length_args_of_mem_validate {r : Report} (h : r ∈ validate ⟨a, machineChecks⟩ rules document) :
    r.args.length = r.kind.arguments.length := by
  obtain ⟨problem, _, rfl⟩ := List.mem_map.mp h
  exact problem.length_args

/-- Two catalogs lead to reports of the same kinds with the same arguments, as many as the kinds have, and
each one words them by itself. No brace of an English template gets into a message: each one belongs to a
placeholder, and its argument takes the place of that. Without the checks of state machines the reports are
those on single values, and with them the others come behind. -/
theorem validate_reports (a b : Catalog) (machineChecks : Bool) (rules : RuleSet) (document : Json) :
    List.Forall₂ (fun r s : Report => r.kind = s.kind ∧ r.args = s.args)
      (validate ⟨a, machineChecks⟩ rules document) (validate ⟨b, machineChecks⟩ rules document) ∧
    (∀ r ∈ validate ⟨a, machineChecks⟩ rules document,
      r.message = a.render r.kind r.args ∧ r.args.length = r.kind.arguments.length) ∧
    (∀ r ∈ validate ⟨.english, machineChecks⟩ rules document, ∃ template : List TemplatePiece,
      template.flatMap TemplatePiece.written = r.kind.english.toList ∧
      (∀ piece ∈ template, piece.Answered r.args.length) ∧
      r.message.toList = template.flatMap (TemplatePiece.filled r.args)) ∧
    validate ⟨a, false⟩ rules document = (rules.problems document).map a.report ∧
    validate ⟨a, true⟩ rules document = validate ⟨a, false⟩ rules document ++
      (StatesLanguage.machineProblems document (.ofRoot rules.root)).map a.report := by
  refine ⟨validate_forall₂ .., fun r hr => ⟨message_of_mem_validate hr, length_args_of_mem_validate hr⟩,
    fun r hr => ?_, ?_, validate_append ..⟩
  · refine ⟨Catalog.pieces 0 r.kind.english.toList, Catalog.flatMap_written_pieces _, ?_, ?_⟩
    · rw [length_args_of_mem_validate hr]
      exact Catalog.answered_english r.kind
    · rw [message_of_mem_validate hr, Catalog.render, String.toList_ofList, Catalog.fill_eq_filled]
      rfl
  · simp [validate, problems]

end Validator

end ProseSchema
