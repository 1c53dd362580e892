import ProseSchema.Proofs.AssertedProbes
import ProseSchema.Proofs.MachineStack
import ProseSchema.Validator

/-!
# The walk with asserted reading

The walk over machines once more, now reading each value by the accessor of the type that it was found to
have, and taking the innermost machine from the stack only where there must be one. It reports what the walk
reports, and the machine that it takes from the stack is the one that it put there.
-/

namespace ProseSchema.Asserted

open StatesLanguage (OpenMachine follow statesOf? startOf?)

/-- A machine that the walk is inside of; its states are a value that is yet to be read. -/
structure Machine where
  states : Json
  incoming : List String

structure Walk where
  machines : List Machine := []
  firstSites : List (String × Location) := []

def ofMachine (machine : OpenMachine) : Machine :=
  ⟨.object machine.states, machine.incoming⟩

def ofWalk (walk : StatesLanguage.Walk) : Walk :=
  ⟨walk.machines.map ofMachine, walk.firstSites⟩

abbrev Stage : Type := Walk → Except Fault (List Problem × Walk)

namespace Stage

def skip : Stage := fun walk => return ([], walk)

def report (problems : Except Fault (List Problem)) : Stage := fun walk => return (← problems, walk)

def andThen (a b : Stage) : Stage := fun walk => do
  let (first, walk) ← a walk
  let (second, walk) ← b walk
  return (first ++ second, walk)

end Stage

def states? (node : Json) : Option Json :=
  (node.get? "States").filter (·.hasType .object)

def noteName (name : String) (place : Location) : Stage := fun walk =>
  match walk.firstSites.lookup name with
  | some first => return ([.duplicateState name place first], walk)
  | none => return ([], { walk with firstSites := (name, place) :: walk.firstSites })

def noteStates (place : Location) : List (String × Json) → Stage
  | [] => .skip
  | (name, state) :: states =>
    Stage.andThen
      (.report (if state.hasType .object then stateProblems state (place.key name) else return []))
      (Stage.andThen (noteName name place) (noteStates place states))

def isTerminal (state : Json) : Except Fault Bool := do
  let succeeds ← hasStateType state "Succeed"
  let fails ← hasStateType state "Fail"
  return succeeds || fails || state.hasField "End"

def terminalProblems (place : Location) (states : List (String × Json)) :
    Except Fault (List Problem) := do
  let found ← states.anyM fun state => isTerminal state.2
  return if found then [] else [.noTerminalState place]

def enterMachine (place : Location) (node states : Json) : Stage := fun walk => do
  let start ← text? node "StartAt"
  let ⟨members, _⟩ ← membersOf states
  let missing := start.toList.filter fun name => !states.hasField name
  Stage.andThen (.report (return missing.map (.missingStart · place)))
    (Stage.andThen
      (fun walk => return ([], { walk with machines := ⟨states, start.toList⟩ :: walk.machines }))
      (Stage.andThen (noteStates (place.key "States") members)
        (.report (terminalProblems place members)))) walk

/-- Leaves the innermost machine, and finds the states that nothing has led to. -/
def leaveMachine (place : Location) : Stage := fun walk =>
  match walk.machines with
  | [] => throw .noMachine
  | machine :: outer => do
    let names ← read machine.states.keys
    let missed := names.filter fun name => !machine.incoming.contains name
    return (missed.map (.unreachableState place ·), { walk with machines := outer })

/-- Follows the transition that a field names, if there is a machine around. -/
def transition (place : Location) (node : Json) (field : String) : Stage := fun walk => do
  let target ← text? node field
  match target, walk.machines with
  | some target, machine :: outer =>
    if machine.states.hasField target then
      let machine := { machine with incoming := target :: machine.incoming }
      return ([], { walk with machines := machine :: outer })
    else return ([.noSuchState target place field], walk)
  | _, _ => return ([], walk)

def handlersProblems (place : Location) (node : Json) : Except Fault (List Problem) := do
  let retry ← probeField (handlerProblems · (place.key "Retry")) node "Retry"
  return retry ++ (← probeField (handlerProblems · (place.key "Catch")) node "Catch")

def arrive (place : Location) (node : Json) : Stage :=
  Stage.andThen
    (match states? node with
      | some states => enterMachine place node states
      | none => .skip)
    (Stage.andThen (transition place node "Next")
      (Stage.andThen (transition place node "Default") (.report (handlersProblems place node))))

def depart (place : Location) (node : Json) : Stage :=
  if (states? node).isSome then leaveMachine place else .skip

mutual

def visit (place : Location) (value : Json) : Stage :=
  if value.hasType .object then
    Stage.andThen (arrive place value)
      (Stage.andThen
        (fun walk => do
          let ⟨members, _⟩ ← membersOf value
          visitMembers place members walk)
        (depart place value))
  else .skip
termination_by value.weight

def visitMembers (place : Location) (members : List (String × Json)) : Stage :=
  match members with
  | [] => .skip
  | (name, value) :: members =>
    Stage.andThen
      (if value.hasType .array then fun walk => do
        let ⟨elements, _⟩ ← elementsOf value
        visitElements (place.key name) 0 elements walk
      else visit (place.key name) value)
      (visitMembers place members)
termination_by 2 * Json.membersWeight members
decreasing_by
  all_goals
    have := value.weight_pos
    rw [Json.membersWeight]
    omega

def visitElements (place : Location) (start : Nat) (elements : List Json) : Stage :=
  match elements with
  | [] => .skip
  | element :: elements =>
    Stage.andThen (visit (place.index start) element) (visitElements place (start + 1) elements)
termination_by 2 * Json.elementsWeight elements
decreasing_by
  all_goals
    have := element.weight_pos
    rw [Json.elementsWeight]
    omega

end

def machineProblems (document : Json) (place : Location) : Except Fault (List Problem) := do
  let (problems, _) ← visit place document {}
  return problems

/-- The reports on a document; there are none when it is valid. -/
def validate (validator : Validator) (rules : RuleSet) (document : Json) : Except Fault (List Report) := do
  let broken ← sweep rules.tables [rules.rootItem document]
  let structural ←
    if validator.machineChecks then machineProblems document (.ofRoot rules.root) else pure []
  return (broken ++ structural).map validator.catalog.report

/-! No part of the walk fails. -/

/-- The asserted part of the walk does what the other one does, and does not fail. -/
def Refines (a : Stage) (s : StatesLanguage.Stage) (walk : StatesLanguage.Walk) : Prop :=
  a (ofWalk walk) = .ok ((s walk).1, ofWalk (s walk).2)

namespace Refines

variable {a b : Stage} {s t : StatesLanguage.Stage} {walk : StatesLanguage.Walk}

lemma skip : Refines .skip .skip walk :=
  rfl

lemma report {found : Except Fault (List Problem)} {problems : List Problem} (h : found = .ok problems) :
    Refines (.report found) (.report problems) walk := by
  subst h
  rfl

lemma andThen (ha : Refines a s walk) (hb : Refines b t (s walk).2) :
    Refines (Stage.andThen a b) (StatesLanguage.Stage.andThen s t) walk := by
  rw [Refines] at ha hb
  rw [Refines, Stage.andThen, ha]
  change (do
    let (second, walk) ← b (ofWalk (s walk).2)
    return ((s _).1 ++ second, walk)) = _
  rw [hb]
  rfl

end Refines

lemma states?_object (members : List (String × Json)) :
    states? (.object members) = (statesOf? members).map .object := by
  rw [states?, statesOf?, Json.get?]
  cases members.lookup "States" with
  | none => rfl
  | some value => cases value <;> rfl

lemma noteName_refines (name : String) (place : Location) (walk : StatesLanguage.Walk) :
    Refines (noteName name place) (StatesLanguage.noteName name place) walk := by
  unfold Refines noteName StatesLanguage.noteName ofWalk
  cases walk.firstSites.lookup name <;> rfl

lemma noteStates_refines (place : Location) (states : List (String × Json))
    (walk : StatesLanguage.Walk) :
    Refines (noteStates place states) (StatesLanguage.noteStates place states) walk := by
  induction states generalizing walk with
  | nil => exact .skip
  | cons state states ih =>
    obtain ⟨name, state⟩ := state
    refine Refines.andThen (.report ?_) ((noteName_refines name place _).andThen (ih _))
    rw [stateProblems_eq]
    split <;> rfl

lemma terminalProblems_eq (place : Location) (states : List (String × Json)) :
    terminalProblems place states =
      .ok (if states.any fun state => StatesLanguage.isTerminal state.2 then []
        else [.noTerminalState place]) := by
  have ht : (fun state : String × Json => isTerminal state.2) =
      fun state => (pure (StatesLanguage.isTerminal state.2) : Except Fault Bool) := by
    funext state
    rw [isTerminal, hasStateType_eq, hasStateType_eq]
    rfl
  rw [terminalProblems, ht, List.anyM_pure]
  rfl

lemma enterMachine_refines (place : Location) (members states : List (String × Json))
    (walk : StatesLanguage.Walk) :
    Refines (enterMachine place (.object members) (.object states))
      (StatesLanguage.enterMachine place members states) walk := by
  have hm (name : String) : (!(Json.object states).hasField name) = (states.lookup name).isNone := by
    rw [Json.hasField, Json.get?, Option.not_isSome]
  rw [Refines, enterMachine, text?_eq, membersOf_object]
  simp only [hm]
  exact Refines.andThen (.report rfl) (Refines.andThen rfl
    ((noteStates_refines _ states _).andThen (.report (terminalProblems_eq place states))))

lemma transition_refines (place : Location) (members : List (String × Json)) (field : String)
    (walk : StatesLanguage.Walk) :
    Refines (transition place (.object members) field)
      (StatesLanguage.transition place members field) walk := by
  obtain ⟨machines, firstSites⟩ := walk
  rw [Refines, transition, text?_eq, StatesLanguage.transition, Json.get?]
  cases (members.lookup field).bind Json.string? with
  | none => rfl
  | some target =>
    cases machines with
    | nil => rfl
    | cons machine outer =>
      change (if machine.hasState target then _ else _) = _
      dsimp only
      cases machine.hasState target <;> rfl

lemma leaveMachine_refines (place : Location) {machine : OpenMachine} {outer : List OpenMachine}
    {walk : StatesLanguage.Walk} (h : StatesLanguage.Keeps (machine :: outer) walk.machines) :
    Refines (leaveMachine place) (StatesLanguage.leaveMachine place) walk := by
  obtain ⟨machines, firstSites⟩ := walk
  obtain ⟨names, hw⟩ := h.exists_cons
  obtain rfl : machines = _ := hw
  have hk : read (Json.object machine.states).keys = .ok (machine.states.map Prod.fst) := by
    rw [Json.keys_object]
    rfl
  have he : ((machine.states.map Prod.fst).filter fun name =>
      !(names ++ machine.incoming).contains name).map (Problem.unreachableState place ·) =
      (machine.states.filter fun state => !(names ++ machine.incoming).contains state.1).map
        fun state => .unreachableState place state.1 := by
    rw [List.filter_map, List.map_map]
    rfl
  change (do
    let keys ← read (Json.object machine.states).keys
    let missed := keys.filter fun name => !(names ++ machine.incoming).contains name
    return (missed.map (Problem.unreachableState place ·), (⟨outer.map ofMachine, firstSites⟩ : Walk))) =
    .ok ((machine.states.filter fun state => !(names ++ machine.incoming).contains state.1).map
      fun state => .unreachableState place state.1, ofWalk ⟨outer, firstSites⟩)
  rw [hk, ← he]
  rfl

lemma arrive_refines (place : Location) (members : List (String × Json)) (walk : StatesLanguage.Walk) :
    Refines (arrive place (.object members)) (StatesLanguage.arrive place members) walk := by
  have hh : handlersProblems place (.object members) =
      .ok (StatesLanguage.handlerFieldProblems place members "Retry" ++
        StatesLanguage.handlerFieldProblems place members "Catch") := by
    have hf (field : String) :=
      probeField_eq (fun handlers => handlerProblems_eq handlers (place.key field)) (.object members) field
    rw [handlersProblems, hf, hf]
    rfl
  refine Refines.andThen ?_ ((transition_refines place members "Next" _).andThen
    ((transition_refines place members "Default" _).andThen (.report hh)))
  rw [states?_object]
  cases statesOf? members with
  | none => exact .skip
  | some states => exact enterMachine_refines place members states walk

lemma depart_refines (place : Location) {members : List (String × Json)} {machines : List OpenMachine}
    {walk : StatesLanguage.Walk}
    (h : StatesLanguage.Keeps (StatesLanguage.entered members machines) walk.machines) :
    Refines (depart place (.object members)) (StatesLanguage.depart place members) walk := by
  rw [StatesLanguage.entered] at h
  rw [depart, StatesLanguage.depart, states?_object]
  cases hs : statesOf? members with
  | none => exact .skip
  | some states =>
    rw [hs] at h
    exact leaveMachine_refines place h

lemma visit_object (place : Location) (members : List (String × Json)) :
    visit place (.object members) = Stage.andThen (arrive place (.object members))
      (Stage.andThen (visitMembers place members) (depart place (.object members))) := by
  rw [visit, if_pos ((Json.hasType_object_iff _).mpr ⟨members, rfl⟩), membersOf_object]
  rfl

lemma visitMembers_array (place : Location) (name : String) (elements : List Json)
    (members : List (String × Json)) :
    visitMembers place ((name, .array elements) :: members) =
      Stage.andThen (visitElements (place.key name) 0 elements) (visitMembers place members) := by
  rw [visitMembers, if_pos ((Json.hasType_array_iff _).mpr ⟨elements, rfl⟩), elementsOf_array]
  rfl

mutual

/-- The walk over a value does not fail, whatever the stack is. -/
theorem visit_refines (place : Location) (value : Json) (walk : StatesLanguage.Walk) :
    Refines (visit place value) (StatesLanguage.visit place value) walk := by
  match value with
  | .object members =>
    -- What is inside the object may not take off the machine that is left behind it.
    have hk := (StatesLanguage.arrive_keeps place members walk).trans
      (StatesLanguage.visitMembers_keeps place members _)
    rw [visit_object]
    exact (arrive_refines place members walk).andThen
      ((visitMembers_refines place members _).andThen (depart_refines place hk))
  | .null | .bool _ | .number _ | .string _ | .array _ =>
    unfold visit
    exact .skip

theorem visitMembers_refines (place : Location) (members : List (String × Json))
    (walk : StatesLanguage.Walk) :
    Refines (visitMembers place members) (StatesLanguage.visitMembers place members) walk := by
  match members with
  | [] =>
    unfold visitMembers
    exact .skip
  | (name, .array elements) :: members =>
    rw [visitMembers_array]
    exact (visitElements_refines (place.key name) 0 elements walk).andThen
      (visitMembers_refines place members _)
  | (name, .object inner) :: members =>
    rw [visitMembers, if_neg (by simp [Json.hasType])]
    exact (visit_refines (place.key name) (.object inner) walk).andThen
      (visitMembers_refines place members _)
  | (name, .null) :: members | (name, .bool _) :: members | (name, .number _) :: members
  | (name, .string _) :: members =>
    rw [visitMembers, if_neg (by simp [Json.hasType])]
    exact (visit_refines (place.key name) _ walk).andThen (visitMembers_refines place members _)

theorem visitElements_refines (place : Location) (start : Nat) (elements : List Json)
    (walk : StatesLanguage.Walk) :
    Refines (visitElements place start elements)
      (StatesLanguage.visitElements place start elements) walk := by
  match elements with
  | [] =>
    unfold visitElements
    exact .skip
  | element :: elements =>
    unfold visitElements
    exact (visit_refines (place.index start) element walk).andThen
      (visitElements_refines place (start + 1) elements _)

end

lemma machineProblems_eq (document : Json) (place : Location) :
    machineProblems document place = .ok (StatesLanguage.machineProblems document place) := by
  have h : visit place document {} = _ := visit_refines place document {}
  rw [machineProblems, h]
  rfl

lemma validate_eq (validator : Validator) (rules : RuleSet) (document : Json) :
    validate validator rules document = .ok (validator.validate rules document) := by
  rw [validate, sweep_eq, machineProblems_eq, Validator.validate, Validator.problems]
  cases validator.machineChecks <;> rfl

/-- Whatever the rules, the settings, the document and the machines around are, no reading fails and no
machine is missing: the reports are those that are found without asking. The walk over a value leaves the
machines that it found. At an object that is a machine, that one is put on top of the others; it is on top
of them before it is left, with what has led to its states since; and then the others are left. -/
theorem validate_never_fails (validator : Validator) (rules : RuleSet) (document : Json) (root : Location) :
    validate validator rules document = .ok (validator.validate rules document) ∧
    machineProblems document root = .ok (StatesLanguage.machineProblems document root) ∧
    (∀ place value walk, ∃ problems after, visit place value (ofWalk walk) = .ok (problems, ofWalk after) ∧
      StatesLanguage.Keeps walk.machines after.machines) ∧
    ∀ place members states walk, statesOf? members = some states →
      visit place (.object members) = Stage.andThen (arrive place (.object members))
        (Stage.andThen (visitMembers place members) (leaveMachine place)) ∧
      ∃ first second third arrived inside after early late,
        arrive place (.object members) (ofWalk walk) = .ok (first, ofWalk arrived) ∧
        arrived.machines = ⟨states, early ++ (startOf? members).toList⟩ :: walk.machines ∧
        visitMembers place members (ofWalk arrived) = .ok (second, ofWalk inside) ∧
        inside.machines = ⟨states, late ++ early ++ (startOf? members).toList⟩ :: walk.machines ∧
        leaveMachine place (ofWalk inside) = .ok (third, ofWalk after) ∧
        after.machines = walk.machines := by
  refine ⟨validate_eq validator rules document, machineProblems_eq document root, ?_, ?_⟩
  · intro place value walk
    exact ⟨_, _, visit_refines place value walk, StatesLanguage.visit_keeps place value walk⟩
  · intro place members states walk hs
    have hl : depart place (.object members) = leaveMachine place := by
      rw [depart, states?_object, hs]
      rfl
    have ha := StatesLanguage.arrive_keeps place members walk
    have hm := StatesLanguage.visitMembers_keeps place members (StatesLanguage.arrive place members walk).2
    rw [StatesLanguage.entered, hs] at ha
    obtain ⟨early, he⟩ := ha.exists_cons
    obtain ⟨late, hn⟩ := (he ▸ hm).exists_cons
    refine ⟨hl ▸ visit_object place members, _, _, _, _, _, _, early, late,
      arrive_refines place members walk, he, visitMembers_refines place members _, ?_,
      leaveMachine_refines place (ha.trans hm), StatesLanguage.leaveMachine_machines place (ha.trans hm)⟩
    rw [hn, List.append_assoc]

end ProseSchema.Asserted
