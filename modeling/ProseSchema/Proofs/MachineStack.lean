import ProseSchema.Proofs.WalkEffects

/-!
# The stack of machines

A machine is put on the stack when it is entered and taken from it when it is left. Whatever the stack is, the
walk over a value leaves the machines that it found there, with at most more incoming names at the innermost one.
-/

namespace ProseSchema.StatesLanguage

/-- The machines are the same, but for names that the innermost one has taken as incoming. -/
def Keeps (machines after : List OpenMachine) : Prop :=
  ∃ names, after = follow names machines

lemma Keeps.refl (machines : List OpenMachine) : Keeps machines machines :=
  ⟨[], (follow_nil machines).symm⟩

lemma Keeps.trans {a b c : List OpenMachine} (hab : Keeps a b) (hbc : Keeps b c) : Keeps a c := by
  obtain ⟨names, rfl⟩ := hab
  obtain ⟨later, rfl⟩ := hbc
  exact ⟨names ++ later, (follow_append names later a).symm⟩

lemma Keeps.exists_cons {machine : OpenMachine} {outer after : List OpenMachine}
    (h : Keeps (machine :: outer) after) :
    ∃ names, after = { machine with incoming := names ++ machine.incoming } :: outer := by
  obtain ⟨names, rfl⟩ := h
  exact ⟨_, rfl⟩

/-- The stack at an object, once the machine that it is, if it is one, is put on it. -/
def entered (members : List (String × Json)) (machines : List OpenMachine) : List OpenMachine :=
  match statesOf? members with
  | some states => ⟨states, (startOf? members).toList⟩ :: machines
  | none => machines

lemma arrive_keeps (place : Location) (members : List (String × Json)) (walk : Walk) :
    Keeps (entered members walk.machines) (arrive place members walk).2.machines := by
  have ht (field : String) (walk : Walk) :
      Keeps walk.machines (transition place members field walk).2.machines :=
    ⟨_, (transition_effect place members walk field).machines_eq⟩
  have he (walk : Walk) : ((match statesOf? members with
      | some states => enterMachine place members states
      | none => .skip : Stage) walk).2.machines = entered members walk.machines := by
    unfold entered
    cases statesOf? members with
    | some states => exact (enterMachine_effect place members states walk).machines_eq
    | none => rfl
  rw [← he walk]
  exact (ht "Next" _).trans (ht "Default" _)

lemma leaveMachine_machines (place : Location) {machine : OpenMachine} {outer : List OpenMachine} {walk : Walk}
    (h : Keeps (machine :: outer) walk.machines) : (leaveMachine place walk).2.machines = outer := by
  obtain ⟨_, hw⟩ := h.exists_cons
  exact (leaveMachine_effect place walk _ _ hw).machines_eq

/-- Behind an object the stack is what it was before the object. -/
lemma depart_keeps (place : Location) {members : List (String × Json)} {machines : List OpenMachine}
    {walk : Walk} (h : Keeps (entered members machines) walk.machines) :
    Keeps machines (depart place members walk).2.machines := by
  rw [entered] at h
  unfold depart
  cases hs : statesOf? members with
  | none =>
    rw [hs] at h
    exact h
  | some states =>
    rw [hs] at h
    rw [Option.isSome_some, if_pos rfl, leaveMachine_machines place h]
    exact .refl machines

mutual

theorem visit_keeps (place : Location) (value : Json) (walk : Walk) :
    Keeps walk.machines (visit place value walk).2.machines := by
  match value with
  | .object members =>
    refine depart_keeps place ?_
    exact (arrive_keeps place members walk).trans (visitMembers_keeps place members _)
  | .null | .bool _ | .number _ | .string _ | .array _ => exact .refl _

theorem visitMembers_keeps (place : Location) (members : List (String × Json)) (walk : Walk) :
    Keeps walk.machines (visitMembers place members walk).2.machines := by
  match members with
  | [] => exact .refl _
  | (name, .array elements) :: members =>
    exact (visitElements_keeps (place.key name) 0 elements walk).trans (visitMembers_keeps place members _)
  | (name, .object inner) :: members =>
    exact (visit_keeps (place.key name) (.object inner) walk).trans (visitMembers_keeps place members _)
  | (name, .null) :: members | (name, .bool _) :: members | (name, .number _) :: members
  | (name, .string _) :: members => exact visitMembers_keeps place members walk

theorem visitElements_keeps (place : Location) (start : Nat) (elements : List Json) (walk : Walk) :
    Keeps walk.machines (visitElements place start elements walk).2.machines := by
  match elements with
  | [] => exact .refl _
  | element :: elements =>
    exact (visit_keeps (place.index start) element walk).trans
      (visitElements_keeps place (start + 1) elements _)

end

end ProseSchema.StatesLanguage
