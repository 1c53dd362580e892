import Mathlib.Tactic.ByContra
import Mathlib.Tactic.Push
import ProseSchema.Json.Lemmas
import ProseSchema.StatesLanguage.Probe

/-!
# Handlers of all errors

A handler of all errors has to be the last one of its list and to name no other error. The loop over the
handlers stops at the first one that breaks this rule, so at most one is reported. Where none is, the list names
all errors in its last handler, and alone there, or nowhere.
-/

namespace ProseSchema.StatesLanguage

/-- The handler has a list of errors. -/
def ListsErrors (handler : Json) (errors : List Json) : Prop :=
  handler.get? "ErrorEquals" = some (.array errors)

/-- The handler at the index names all errors, and there is a handler behind it or another name beside. -/
def MisplacedAt (handlers : List Json) (index : Nat) : Prop :=
  ∃ handler errors, handlers[index]? = some handler ∧ ListsErrors handler errors ∧
    .string "States.ALL" ∈ errors ∧ (index + 1 ≠ handlers.length ∨ errors.length ≠ 1)

lemma handledErrors_eq_some_iff {handler : Json} {errors : List Json} :
    handledErrors handler = some errors ↔ ListsErrors handler errors := by
  rw [handledErrors, Option.bind_eq_some_iff, ListsErrors]
  simp only [Json.array?_eq_some_iff, exists_eq_right]

lemma isMisplaced_iff {last : Bool} {handler : Json} :
    isMisplaced last handler = true ↔ ∃ errors, ListsErrors handler errors ∧
      .string "States.ALL" ∈ errors ∧ (last = false ∨ errors.length ≠ 1) := by
  rw [isMisplaced, Option.any_eq_true]
  refine exists_congr fun errors => and_congr handledErrors_eq_some_iff ?_
  have hnames : errors.any (fun e => e.string? = some "States.ALL") = true ↔ .string "States.ALL" ∈ errors := by
    simp only [List.any_eq_true, decide_eq_true_eq, Json.string?_eq_some_iff, exists_eq_right]
  have hplace : (!(last && decide (errors.length = 1))) = true ↔ last = false ∨ errors.length ≠ 1 := by
    cases last <;> simp
  rw [Bool.and_eq_true, hnames, hplace]

section

variable {handler : Json} {handlers : List Json} {start index : Nat}

lemma not_misplacedAt_nil : ¬MisplacedAt [] index := by
  rintro ⟨handler, errors, hi, -⟩
  exact absurd hi (by simp)

lemma misplacedAt_cons_zero_iff :
    MisplacedAt (handler :: handlers) 0 ↔ isMisplaced handlers.isEmpty handler = true := by
  have hlast : 0 + 1 ≠ (handler :: handlers).length ↔ handlers.isEmpty = false := by
    cases handlers <;> simp
  rw [isMisplaced_iff, MisplacedAt, hlast]
  simp only [List.getElem?_cons_zero, Option.some.injEq, exists_and_left, exists_eq_left']

lemma misplacedAt_cons_succ_iff : MisplacedAt (handler :: handlers) (index + 1) ↔ MisplacedAt handlers index := by
  simp only [MisplacedAt, List.getElem?_cons_succ, List.length_cons, ne_eq, Nat.add_right_cancel_iff]

lemma misplacedFrom_eq_none_iff :
    misplacedFrom start handlers = none ↔ ∀ i, ¬MisplacedAt handlers i := by
  induction handlers generalizing start with
  | nil => exact iff_of_true rfl fun i => not_misplacedAt_nil
  | cons handler handlers ih =>
    rw [misplacedFrom, ← Nat.and_forall_add_one, misplacedAt_cons_zero_iff]
    simp only [misplacedAt_cons_succ_iff]
    split
    · next h => simp [h]
    · next h => rw [ih, and_iff_right h]

/-- The loop stops at the first handler that is misplaced: all before it have been passed over. -/
lemma misplacedFrom_eq_some_iff : misplacedFrom start handlers = some index ↔
    ∃ i, index = start + i ∧ MisplacedAt handlers i ∧ ∀ j < i, ¬MisplacedAt handlers j := by
  induction handlers generalizing start with
  | nil =>
    refine iff_of_false (by simp [misplacedFrom]) ?_
    rintro ⟨i, -, hi, -⟩
    exact not_misplacedAt_nil hi
  | cons handler handlers ih =>
    -- The rest of the list has the same end, so its handlers are misplaced there if they are misplaced here.
    rw [misplacedFrom]
    by_cases hfirst : MisplacedAt (handler :: handlers) 0
    · rw [if_pos (misplacedAt_cons_zero_iff.mp hfirst), Option.some.injEq]
      constructor
      · rintro rfl
        exact ⟨0, rfl, hfirst, fun j hj => absurd hj (Nat.not_lt_zero j)⟩
      · rintro ⟨i, rfl, -, hbefore⟩
        cases i with
        | zero => rfl
        | succ i => exact absurd hfirst (hbefore 0 (Nat.succ_pos i))
    · rw [if_neg (mt misplacedAt_cons_zero_iff.mpr hfirst), ih]
      constructor
      · rintro ⟨i, rfl, hi, hbefore⟩
        refine ⟨i + 1, by omega, misplacedAt_cons_succ_iff.mpr hi, ?_⟩
        rw [Nat.forall_lt_succ_left]
        exact ⟨hfirst, fun j hj => mt misplacedAt_cons_succ_iff.mp (hbefore j hj)⟩
      · rintro ⟨i, rfl, hi, hbefore⟩
        cases i with
        | zero => exact absurd hi hfirst
        | succ i =>
          rw [Nat.forall_lt_succ_left] at hbefore
          exact ⟨i, by omega, misplacedAt_cons_succ_iff.mp hi,
            fun j hj => mt misplacedAt_cons_succ_iff.mpr (hbefore.2 j hj)⟩

lemma mem_handlerProblems_iff {value : Json} {place : Location} {p : Problem} :
    p ∈ handlerProblems value place ↔ ∃ handlers, value = .array handlers ∧
      ∃ i, p = .catchAllNotLast place i ∧ MisplacedAt handlers i ∧ ∀ j < i, ¬MisplacedAt handlers j := by
  simp only [handlerProblems, Option.mem_toList, Option.map_eq_some_iff, Option.bind_eq_some_iff,
    Json.array?_eq_some_iff, misplacedFrom_eq_some_iff, Nat.zero_add]
  constructor
  · rintro ⟨index, ⟨handlers, hv, i, rfl, hi⟩, rfl⟩
    exact ⟨handlers, hv, index, rfl, hi⟩
  · rintro ⟨handlers, hv, i, rfl, hi⟩
    exact ⟨i, ⟨handlers, hv, i, rfl, hi⟩, rfl⟩

lemma handlerProblems_eq_nil_iff {value : Json} {place : Location} :
    handlerProblems value place = [] ↔ ∀ handlers, value = .array handlers → ∀ i, ¬MisplacedAt handlers i := by
  rw [handlerProblems, Option.toList_eq_nil_iff, Option.map_eq_none_iff, Option.bind_eq_none_iff]
  simp only [Json.array?_eq_some_iff, misplacedFrom_eq_none_iff]

/-- No handler is misplaced exactly if each one that names all errors is the last one and names nothing else. -/
lemma forall_not_misplacedAt_iff : (∀ i, ¬MisplacedAt handlers i) ↔
    ∀ i handler errors, handlers[i]? = some handler → ListsErrors handler errors → .string "States.ALL" ∈ errors →
      i + 1 = handlers.length ∧ errors = [.string "States.ALL"] := by
  constructor
  · intro h i handler errors hi hlists hall
    obtain ⟨hlast, hlength⟩ : i + 1 = handlers.length ∧ errors.length = 1 := by
      by_contra hnot
      exact h i ⟨handler, errors, hi, hlists, hall, not_and_or.mp hnot⟩
    obtain ⟨error, rfl⟩ := List.length_eq_one_iff.mp hlength
    rw [List.mem_singleton.mp hall]
    exact ⟨hlast, rfl⟩
  · rintro h i ⟨handler, errors, hi, hlists, hall, hmisplaced⟩
    obtain ⟨hlast, rfl⟩ := h i handler errors hi hlists hall
    exact hmisplaced.elim (fun hne => hne hlast) (fun hne => hne rfl)

end

/-- At most one problem is reported of a value that should list handlers: that its first misplaced handler is at
some index, if the value is an array and has such a handler. Nothing is reported of an array exactly if it names all
errors nowhere but in its last handler, and alone there. -/
theorem first_misplaced_handler_reported (value : Json) (place : Location) :
    (handlerProblems value place).length ≤ 1 ∧
    ((handlerProblems value place).length = 1 ↔
      ∃ handlers, value = .array handlers ∧ ∃ i, MisplacedAt handlers i) ∧
    (∀ p, p ∈ handlerProblems value place ↔ ∃ handlers, value = .array handlers ∧
      ∃ i, p = .catchAllNotLast place i ∧ MisplacedAt handlers i ∧ ∀ j < i, ¬MisplacedAt handlers j) ∧
    (handlerProblems value place = [] ↔ ∀ handlers, value = .array handlers → ∀ i handler errors,
      handlers[i]? = some handler → ListsErrors handler errors → .string "States.ALL" ∈ errors →
        i + 1 = handlers.length ∧ errors = [.string "States.ALL"]) := by
  have hatMost : (handlerProblems value place).length ≤ 1 := by
    rw [handlerProblems]
    cases (value.array?.bind (misplacedFrom 0)).map (Problem.catchAllNotLast place ·) <;> simp
  have hone : (handlerProblems value place).length = 1 ↔ handlerProblems value place ≠ [] := by
    rw [← List.length_pos_iff]
    omega
  refine ⟨hatMost, ?_, fun p => mem_handlerProblems_iff, ?_⟩
  · rw [hone, ne_eq, handlerProblems_eq_nil_iff]
    push Not
    rfl
  · rw [handlerProblems_eq_nil_iff]
    exact forall₂_congr fun handlers _ => forall_not_misplacedAt_iff

example :
    let all := Json.object [("ErrorEquals", .array [.string "States.ALL"])]
    handlerProblems (.array [all, .null, all, all]) (.ofRoot "Retry") = [.catchAllNotLast (.ofRoot "Retry") 0] := by
  rfl

end ProseSchema.StatesLanguage
