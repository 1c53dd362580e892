import Mathlib.Data.List.Perm.Basic
import Mathlib.Tactic.Lemma
import ProseSchema.Json.Lemmas
import ProseSchema.StatesLanguage.Walk

/-!
# What the stages of the walk do

A stage has three effects: it reports problems of machines, it sights state names, and it changes the stack
of machines. The effects of two stages in a row are those of the first one and then those of the second one.
-/

namespace ProseSchema

namespace Problem

/-- Is the problem one of a whole machine or of a transition? -/
def isMachineLevel : Problem → Bool
  | missingStart .. | noTerminalState .. | noSuchState .. | unreachableState .. => true
  | _ => false

/-- Is the problem a state name that is used again? -/
def isRepeatedName : Problem → Bool
  | duplicateState .. => true
  | _ => false

/-- Is the problem found by looking at one state or at the handlers of one object? -/
def isLocal : Problem → Bool
  | nullPath .. | invalidPath .. | invalidPayloadPath .. | invalidVariable .. | catchAllNotLast .. => true
  | _ => false

lemma isMachineLevel_of_isLocal {p : Problem} (h : p.isLocal = true) : p.isMachineLevel = false := by
  cases p <;> simp_all [isLocal, isMachineLevel]

lemma isRepeatedName_of_isLocal {p : Problem} (h : p.isLocal = true) : p.isRepeatedName = false := by
  cases p <;> simp_all [isLocal, isRepeatedName]

end Problem

namespace StatesLanguage

/-! Problems of single states and of handlers. -/

lemma pathProblems_isLocal (state : Json) (place : Location) (field : String) (nullable : Bool) :
    ∀ p ∈ pathProblems state place field nullable, p.isLocal = true := by
  unfold pathProblems
  split
  · simp
  · cases nullable <;> simp [Problem.isLocal]
  · split <;> simp [Problem.isLocal]

mutual

theorem templateProblems_isLocal (template : String) (place : Location) (value : Json) :
    ∀ p ∈ templateProblems template place value, p.isLocal = true := by
  match value with
  | .object members => exact templateMemberProblems_isLocal template place members
  | .array elements => exact templateElementProblems_isLocal template place 0 elements
  | .null | .bool _ | .number _ | .string _ => simp [templateProblems]

theorem templateMemberProblems_isLocal (template : String) (place : Location)
    (members : List (String × Json)) :
    ∀ p ∈ templateMemberProblems template place members, p.isLocal = true := by
  match members with
  | [] => simp [templateMemberProblems]
  | (key, value) :: members =>
    rw [templateMemberProblems, List.forall_mem_append]
    refine ⟨?_, templateMemberProblems_isLocal template place members⟩
    split
    · split <;> simp [Problem.isLocal]
    · exact templateProblems_isLocal template (place.key key) value

theorem templateElementProblems_isLocal (template : String) (place : Location) (start : Nat)
    (elements : List Json) :
    ∀ p ∈ templateElementProblems template place start elements, p.isLocal = true := by
  match elements with
  | [] => simp [templateElementProblems]
  | element :: elements =>
    rw [templateElementProblems, List.forall_mem_append]
    exact ⟨templateProblems_isLocal template _ element,
      templateElementProblems_isLocal template place _ elements⟩

end

lemma variableProblems_isLocal (members : List (String × Json)) (place : Location) :
    ∀ p ∈ variableProblems members place, p.isLocal = true := by
  unfold variableProblems
  split
  · split <;> simp [Problem.isLocal]
  · simp

mutual

theorem choiceProblems_isLocal (place : Location) (value : Json) :
    ∀ p ∈ choiceProblems place value, p.isLocal = true := by
  match value with
  | .object members =>
    simp only [choiceProblems, List.forall_mem_append]
    exact ⟨⟨⟨variableProblems_isLocal members place, operandProblems_isLocal "And" place members⟩,
      operandProblems_isLocal "Or" place members⟩, operandProblems_isLocal "Not" place members⟩
  | .array elements => exact choiceElementProblems_isLocal place 0 elements
  | .null | .bool _ | .number _ | .string _ => simp [choiceProblems]

theorem operandProblems_isLocal (operator : String) (place : Location) (members : List (String × Json)) :
    ∀ p ∈ operandProblems operator place members, p.isLocal = true := by
  match members with
  | [] => simp [operandProblems]
  | (key, value) :: members =>
    unfold operandProblems
    split
    · exact choiceProblems_isLocal (place.key operator) value
    · exact operandProblems_isLocal operator place members

theorem choiceElementProblems_isLocal (place : Location) (start : Nat) (elements : List Json) :
    ∀ p ∈ choiceElementProblems place start elements, p.isLocal = true := by
  match elements with
  | [] => simp [choiceElementProblems]
  | element :: elements =>
    rw [choiceElementProblems, List.forall_mem_append]
    exact ⟨choiceProblems_isLocal _ element, choiceElementProblems_isLocal place _ elements⟩

end

lemma stateProblems_isLocal (state : Json) (place : Location) :
    ∀ p ∈ stateProblems state place, p.isLocal = true := by
  simp only [stateProblems, List.forall_mem_append]
  refine ⟨⟨?_, ?_⟩, ?_⟩
  · rw [List.forall_mem_flatMap]
    intro field _
    exact pathProblems_isLocal state place field.1 field.2
  · rw [List.forall_mem_flatMap]
    intro field _
    cases state.get? field with
    | none => simp
    | some value => exact templateProblems_isLocal field place value
  · split
    · cases state.get? "Choices" with
      | none => simp
      | some value => exact choiceProblems_isLocal _ value
    · simp

lemma handlerFieldProblems_isLocal (place : Location) (members : List (String × Json)) (field : String) :
    ∀ p ∈ handlerFieldProblems place members field, p.isLocal = true := by
  unfold handlerFieldProblems
  cases members.lookup field with
  | none => simp
  | some handlers =>
    simp only [Option.map_some, Option.getD_some, handlerProblems, Option.toList_map,
      List.forall_mem_map]
    intro _ _
    rfl

/-! Names and transitions. -/

/-- Notes state names with the places of the states that they stand among: the problems of those that were
noted before, and where each name was noted first. -/
def noteAll : List (String × Location) → List (String × Location) → List Problem × List (String × Location)
  | [], firstSites => ([], firstSites)
  | (name, place) :: sightings, firstSites =>
    match firstSites.lookup name with
    | some first =>
      let (problems, after) := noteAll sightings firstSites
      (.duplicateState name place first :: problems, after)
    | none => noteAll sightings ((name, place) :: firstSites)

lemma noteAll_append (sightings later firstSites : List (String × Location)) :
    noteAll (sightings ++ later) firstSites =
      ((noteAll sightings firstSites).1 ++ (noteAll later (noteAll sightings firstSites).2).1,
        (noteAll later (noteAll sightings firstSites).2).2) := by
  induction sightings generalizing firstSites with
  | nil => rfl
  | cons sighting sightings ih =>
    obtain ⟨name, place⟩ := sighting
    simp only [List.cons_append, noteAll]
    cases firstSites.lookup name with
    | some first => simp only [ih, List.cons_append]
    | none => simp only [ih]

/-- Leads to names from inside the innermost machine, which takes those that are states of its own. -/
def follow (names : List String) : List OpenMachine → List OpenMachine
  | [] => []
  | machine :: outer =>
    { machine with incoming := (names.filter machine.hasState).reverse ++ machine.incoming } :: outer

@[simp] lemma follow_nil (machines : List OpenMachine) : follow [] machines = machines := by
  cases machines <;> rfl

lemma follow_append (names later : List String) (machines : List OpenMachine) :
    follow (names ++ later) machines = follow later (follow names machines) := by
  cases machines with
  | nil => rfl
  | cons machine outer =>
    simp only [follow, List.filter_append, List.reverse_append, List.append_assoc]
    rfl

def innermostStates? (machines : List OpenMachine) : Option (List (String × Json)) :=
  machines.head?.map OpenMachine.states

@[simp] lemma innermostStates?_follow (names : List String) (machines : List OpenMachine) :
    innermostStates? (follow names machines) = innermostStates? machines := by
  cases machines <;> rfl

lemma statesOf?_eq_some_iff (members states : List (String × Json)) :
    statesOf? members = some states ↔ members.lookup "States" = some (.object states) := by
  simp only [statesOf?, Option.bind_eq_some_iff, Json.object?_eq_some_iff, exists_eq_right]

lemma startOf?_eq_some_iff (members : List (String × Json)) (start : String) :
    startOf? members = some start ↔ members.lookup "StartAt" = some (.string start) := by
  simp only [startOf?, Option.bind_eq_some_iff, Json.string?_eq_some_iff, exists_eq_right]

/-- The name of the state that a field leads to. -/
def target? (members : List (String × Json)) (field : String) : Option String :=
  (members.lookup field).bind Json.string?

lemma target?_eq_some_iff (members : List (String × Json)) (field target : String) :
    target? members field = some target ↔ members.lookup field = some (.string target) := by
  simp only [target?, Option.bind_eq_some_iff, Json.string?_eq_some_iff, exists_eq_right]

/-- The problem of a transition from an object in a machine with these states. -/
def transitionReports (states : List (String × Json)) (place : Location) (members : List (String × Json))
    (field : String) : List Problem :=
  ((target? members field).toList.filter fun target => (states.lookup target).isNone).map
    (.noSuchState · place field)

def MayEnd (state : Json) : Prop :=
  state.get? "Type" = some (.string "Succeed") ∨ state.get? "Type" = some (.string "Fail") ∨
    state.Has "End"

instance : DecidablePred MayEnd := fun _ =>
  inferInstanceAs (Decidable (_ ∨ _ ∨ _))

lemma hasStateType_iff (state : Json) (type : String) :
    hasStateType state type = true ↔ state.get? "Type" = some (.string type) := by
  rw [hasStateType, decide_eq_true_eq, Option.bind_eq_some_iff]
  simp only [Json.string?_eq_some_iff, exists_eq_right]

lemma isTerminal_iff (state : Json) : isTerminal state = true ↔ MayEnd state := by
  simp only [isTerminal, MayEnd, Bool.or_eq_true, hasStateType_iff, Json.hasField_iff, or_assoc]

/-! Effects of stages. -/

/-- What a stage does to a walk: the problems of machines that it reports, in some order, the names that it
sights, and the machines that are left. -/
structure Effect (stage : Stage) (walk : Walk) (reports : List Problem)
    (sightings : List (String × Location)) (machines : List OpenMachine) : Prop where
  machines_eq : (stage walk).2.machines = machines
  reports_perm : ((stage walk).1.filter Problem.isMachineLevel).Perm reports
  repeated_eq : (stage walk).1.filter Problem.isRepeatedName = (noteAll sightings walk.firstSites).1
  firstSites_eq : (stage walk).2.firstSites = (noteAll sightings walk.firstSites).2

namespace Effect

variable {a b : Stage} {walk : Walk} {reports later : List Problem}
  {sightings laterSightings : List (String × Location)} {machines after : List OpenMachine}

lemma congr (h : Effect a walk reports sightings machines) (hp : reports.Perm later)
    (hs : sightings = laterSightings) (hm : machines = after) :
    Effect a walk later laterSightings after := by
  subst hs hm
  exact { h with reports_perm := h.reports_perm.trans hp }

lemma andThen (ha : Effect a walk reports sightings machines)
    (hb : ∀ walk' : Walk, walk'.machines = machines → Effect b walk' later laterSightings after) :
    Effect (Stage.andThen a b) walk (reports ++ later) (sightings ++ laterSightings) after := by
  have hb := hb (a walk).2 ha.machines_eq
  constructor
  · exact hb.machines_eq
  · change (((a walk).1 ++ (b (a walk).2).1).filter _).Perm _
    rw [List.filter_append]
    exact ha.reports_perm.append hb.reports_perm
  · change ((a walk).1 ++ (b (a walk).2).1).filter _ = _
    rw [List.filter_append, ha.repeated_eq, hb.repeated_eq, noteAll_append, ha.firstSites_eq]
  · change (b (a walk).2).2.firstSites = _
    rw [hb.firstSites_eq, noteAll_append, ha.firstSites_eq]

lemma skip : Effect .skip walk [] [] walk.machines :=
  ⟨rfl, .refl _, rfl, rfl⟩

lemma report (problems : List Problem) (h : ∀ p ∈ problems, p.isMachineLevel = true) :
    Effect (.report problems) walk problems [] walk.machines := by
  refine ⟨rfl, ?_, ?_, rfl⟩
  · change (problems.filter _).Perm problems
    rw [List.filter_eq_self.mpr h]
  · change problems.filter _ = []
    rw [List.filter_eq_nil_iff]
    intro p hp
    have := h p hp
    cases p <;> simp_all [Problem.isMachineLevel, Problem.isRepeatedName]

lemma report_local (problems : List Problem) (h : ∀ p ∈ problems, p.isLocal = true) :
    Effect (.report problems) walk [] [] walk.machines := by
  refine ⟨rfl, ?_, ?_, rfl⟩
  · change (problems.filter _).Perm []
    rw [List.filter_eq_nil_iff.mpr fun p hp => by simp [Problem.isMachineLevel_of_isLocal (h p hp)]]
  · change problems.filter _ = []
    apply List.filter_eq_nil_iff.mpr
    intro p hp
    simp [Problem.isRepeatedName_of_isLocal (h p hp)]

end Effect

variable (place : Location) (members states : List (String × Json)) (walk : Walk)

lemma noteName_effect (name : String) :
    Effect (noteName name place) walk [] [(name, place)] walk.machines := by
  cases h : walk.firstSites.lookup name with
  | some first =>
    have hn : noteName name place walk = ([.duplicateState name place first], walk) := by
      simp only [noteName, h]
    constructor <;> simp [hn, noteAll, h, Problem.isMachineLevel, Problem.isRepeatedName]
  | none =>
    have hn : noteName name place walk =
        ([], { walk with firstSites := (name, place) :: walk.firstSites }) := by
      simp only [noteName, h]
    constructor <;> simp [hn, noteAll, h]

lemma noteStates_effect :
    Effect (noteStates place states) walk [] (states.map fun state => (state.1, place)) walk.machines := by
  induction states generalizing walk with
  | nil => exact .skip
  | cons state states ih =>
    obtain ⟨name, state⟩ := state
    have hl : ∀ p ∈ (if state.hasType .object then stateProblems state (place.key name) else []),
        p.isLocal = true := by
      split
      · exact stateProblems_isLocal state _
      · simp
    apply (Effect.report_local _ hl).andThen
    intro walk' hw
    apply (noteName_effect place walk' name).andThen
    intro walk'' hw'
    rw [← hw, ← hw']
    exact ih walk''

/-- The reports on entering a machine: a start that is no state, and the lack of a state to end in. -/
def entryReports : List Problem :=
  ((startOf? members).toList.filter fun name => (states.lookup name).isNone).map (.missingStart · place) ++
    if ∃ state ∈ states, MayEnd state.2 then [] else [.noTerminalState place]

lemma enterMachine_effect :
    Effect (enterMachine place members states) walk (entryReports place members states)
      (states.map fun state => (state.1, place.key "States"))
      (⟨states, (startOf? members).toList⟩ :: walk.machines) := by
  have hm : ∀ p ∈ ((startOf? members).toList.filter fun name => (states.lookup name).isNone).map
      (Problem.missingStart · place), p.isMachineLevel = true :=
    List.forall_mem_map.mpr fun _ _ => rfl
  have he : (if states.any fun state => isTerminal state.2 then [] else [Problem.noTerminalState place]) =
      if ∃ state ∈ states, MayEnd state.2 then [] else [Problem.noTerminalState place] := by
    simp only [List.any_eq_true, isTerminal_iff]
  have ht : ∀ p ∈ (if ∃ state ∈ states, MayEnd state.2 then [] else [Problem.noTerminalState place]),
      p.isMachineLevel = true := by
    split <;> simp [Problem.isMachineLevel]
  let entered (walk : Walk) : List OpenMachine :=
    ⟨states, (startOf? members).toList⟩ :: walk.machines
  have hpush (walk' : Walk) (hw : walk'.machines = walk.machines) :
      Effect (fun walk => ([], { walk with machines := entered walk })) walk' [] [] (entered walk) :=
    ⟨by simp only [entered, hw], .refl _, rfl, rfl⟩
  have hnote (walk' : Walk) (hw : walk'.machines = entered walk) :
      Effect (noteStates (place.key "States") states) walk' []
        (states.map fun state => (state.1, place.key "States")) (entered walk) := by
    rw [← hw]
    exact noteStates_effect _ states walk'
  have hend (walk' : Walk) (hw : walk'.machines = entered walk) :
      Effect (.report (if ∃ state ∈ states, MayEnd state.2 then [] else [.noTerminalState place]))
        walk' (if ∃ state ∈ states, MayEnd state.2 then [] else [.noTerminalState place]) []
        (entered walk) := by
    rw [← hw]
    exact Effect.report _ ht
  rw [enterMachine, he]
  have h := (Effect.report _ hm).andThen fun walk' hw =>
    (hpush walk' hw).andThen fun walk'' hw => (hnote walk'' hw).andThen hend
  refine h.congr (.refl _) ?_ rfl
  simp

lemma transition_effect (field : String) :
    Effect (transition place members field) walk
      (((innermostStates? walk.machines).map fun states =>
        transitionReports states place members field).getD [])
      [] (follow (target? members field).toList walk.machines) := by
  obtain ⟨machines, firstSites⟩ := walk
  unfold target?
  cases ht : (members.lookup field).bind Json.string? with
  | none =>
    have hs : transition place members field ⟨machines, firstSites⟩ = ([], ⟨machines, firstSites⟩) := by
      simp only [transition, ht]
    have hr (states : List (String × Json)) : transitionReports states place members field = [] := by
      simp [transitionReports, target?, ht]
    constructor <;> cases machines <;> simp [hs, hr, noteAll, innermostStates?]
  | some target =>
    cases machines with
    | nil =>
      have hs : transition place members field ⟨[], firstSites⟩ = ([], ⟨[], firstSites⟩) := by
        simp only [transition, ht]
      constructor <;> simp [hs, noteAll, innermostStates?, follow]
    | cons machine outer =>
      have hl : (machine.states.lookup target).isNone = !machine.hasState target := by
        rw [OpenMachine.hasState, Option.not_isSome]
      cases hm : machine.hasState target with
      | true =>
        have hs : transition place members field ⟨machine :: outer, firstSites⟩ =
            ([], ⟨{ machine with incoming := target :: machine.incoming } :: outer, firstSites⟩) := by
          simp only [transition, ht, hm, if_true]
        have hr : transitionReports machine.states place members field = [] := by
          simp [transitionReports, target?, ht, hl, hm, -List.lookup_eq_none_iff]
        constructor <;> simp [hs, hr, hm, noteAll, innermostStates?, follow]
      | false =>
        have hs : transition place members field ⟨machine :: outer, firstSites⟩ =
            ([.noSuchState target place field], ⟨machine :: outer, firstSites⟩) := by
          simp only [transition, ht, hm, Bool.false_eq_true, if_false]
        have hr : transitionReports machine.states place members field =
            [.noSuchState target place field] := by
          simp [transitionReports, target?, ht, hl, hm, -Option.isNone_iff_eq_none]
        constructor <;> simp [hs, hr, hm, noteAll, innermostStates?, follow, Problem.isMachineLevel,
          Problem.isRepeatedName]

lemma leaveMachine_effect (machine : OpenMachine) (outer : List OpenMachine)
    (h : walk.machines = machine :: outer) :
    Effect (leaveMachine place) walk
      ((machine.states.filter fun state => state.1 ∉ machine.incoming).map fun state =>
        .unreachableState place state.1) [] outer := by
  have hl : leaveMachine place walk = (((machine.states.filter fun state => state.1 ∉ machine.incoming).map
      fun state => .unreachableState place state.1), { walk with machines := outer }) := by
    simp [leaveMachine, h]
  have hp : ∀ p ∈ (machine.states.filter fun state => state.1 ∉ machine.incoming).map
      (fun state => Problem.unreachableState place state.1), p.isMachineLevel = true :=
    List.forall_mem_map.mpr fun _ _ => rfl
  have hr : Effect (.report _) walk _ [] walk.machines := Effect.report _ hp
  constructor
  · rw [hl]
  · rw [hl]
    exact hr.reports_perm
  · rw [hl]
    exact hr.repeated_eq
  · rw [hl]
    rfl

end StatesLanguage

end ProseSchema
