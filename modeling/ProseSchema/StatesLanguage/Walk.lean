import ProseSchema.StatesLanguage.Probe

/-!
# Checks across states

An object with an object of states is a machine, wherever it stands. A walk over the document, each
value before what is inside it, checks that transitions lead to states of the innermost machine around
them, that every state is led to, that every machine can end, and that no state name is used twice.
-/

namespace ProseSchema.StatesLanguage

/-- A machine that the walk is inside of. -/
structure OpenMachine where
  states : List (String × Json)
  /-- The names that something has led to so far. -/
  incoming : List String

namespace OpenMachine

def hasState (machine : OpenMachine) (name : String) : Bool :=
  (machine.states.lookup name).isSome

end OpenMachine

/-- What the walk remembers. -/
structure Walk where
  /-- The machines around the present value, the innermost first. -/
  machines : List OpenMachine := []
  /-- Every state name seen so far and the states that it first stood among, the latest name first. -/
  firstSites : List (String × Location) := []

/-- A part of the walk: the problems that it finds, and what is remembered after it. -/
abbrev Stage : Type := Walk → List Problem × Walk

namespace Stage

def skip : Stage := fun walk => ([], walk)

def report (problems : List Problem) : Stage := fun walk => (problems, walk)

def andThen (a b : Stage) : Stage := fun walk =>
  let (first, walk) := a walk
  let (second, walk) := b walk
  (first ++ second, walk)

theorem skip_andThen (a : Stage) : andThen skip a = a :=
  rfl

theorem andThen_skip (a : Stage) : andThen a skip = a := by
  funext walk
  simp only [andThen, skip, List.append_nil]

theorem andThen_assoc (a b c : Stage) : andThen (andThen a b) c = andThen a (andThen b c) := by
  funext walk
  simp only [andThen, List.append_assoc]

end Stage

def statesOf? (members : List (String × Json)) : Option (List (String × Json)) :=
  (members.lookup "States").bind Json.object?

def startOf? (members : List (String × Json)) : Option String :=
  (members.lookup "StartAt").bind Json.string?

/-- Remembers a state name, or finds that it was used before. -/
def noteName (name : String) (place : Location) : Stage := fun walk =>
  match walk.firstSites.lookup name with
  | some first => ([.duplicateState name place first], walk)
  | none => ([], { walk with firstSites := (name, place) :: walk.firstSites })

/-- Checks states one by one, and their names. `place` is that of the object of states. -/
def noteStates (place : Location) : List (String × Json) → Stage
  | [] => .skip
  | (name, state) :: states =>
    Stage.andThen
      (.report (if state.hasType .object then stateProblems state (place.key name) else []))
      (Stage.andThen (noteName name place) (noteStates place states))

def isTerminal (state : Json) : Bool :=
  hasStateType state "Succeed" || hasStateType state "Fail" || state.hasField "End"

def enterMachine (place : Location) (members states : List (String × Json)) : Stage :=
  let start := startOf? members
  let missing := start.toList.filter fun name => (states.lookup name).isNone
  Stage.andThen (.report (missing.map (.missingStart · place)))
    (Stage.andThen (fun walk => ([], { walk with machines := ⟨states, start.toList⟩ :: walk.machines }))
      (Stage.andThen (noteStates (place.key "States") states)
        (.report (if states.any fun state => isTerminal state.2 then [] else [.noTerminalState place]))))

/-- Leaves the innermost machine, and finds the states that nothing has led to. -/
def leaveMachine (place : Location) : Stage := fun walk =>
  match walk.machines with
  | [] => ([], walk)
  | machine :: outer =>
    let missed := machine.states.filter fun state => !machine.incoming.contains state.1
    (missed.map fun state => .unreachableState place state.1, { walk with machines := outer })

/-- Follows the transition that a field names, if there is a machine around. -/
def transition (place : Location) (members : List (String × Json)) (field : String) : Stage := fun walk =>
  match (members.lookup field).bind Json.string?, walk.machines with
  | some target, machine :: outer =>
    if machine.hasState target then
      let machine := { machine with incoming := target :: machine.incoming }
      ([], { walk with machines := machine :: outer })
    else ([.noSuchState target place field], walk)
  | _, _ => ([], walk)

def handlerFieldProblems (place : Location) (members : List (String × Json)) (field : String) :
    List Problem :=
  ((members.lookup field).map fun handlers => handlerProblems handlers (place.key field)).getD []

/-- What is checked at an object before what is inside it. -/
def arrive (place : Location) (members : List (String × Json)) : Stage :=
  Stage.andThen
    (match statesOf? members with
      | some states => enterMachine place members states
      | none => .skip)
    (Stage.andThen (transition place members "Next")
      (Stage.andThen (transition place members "Default")
        (.report (handlerFieldProblems place members "Retry" ++
          handlerFieldProblems place members "Catch"))))

/-- What is checked at an object after what is inside it. -/
def depart (place : Location) (members : List (String × Json)) : Stage :=
  if (statesOf? members).isSome then leaveMachine place else .skip

mutual

/-- Walks over a value. Elements of arrays are visited only where the array is a member of an object. -/
def visit (place : Location) : Json → Stage
  | .object members =>
    Stage.andThen (arrive place members)
      (Stage.andThen (visitMembers place members) (depart place members))
  | _ => .skip

def visitMembers (place : Location) : List (String × Json) → Stage
  | [] => .skip
  | (name, .array elements) :: members =>
    Stage.andThen (visitElements (place.key name) 0 elements) (visitMembers place members)
  | (name, value) :: members =>
    Stage.andThen (visit (place.key name) value) (visitMembers place members)

def visitElements (place : Location) : (start : Nat) → List Json → Stage
  | _, [] => .skip
  | start, element :: elements =>
    Stage.andThen (visit (place.index start) element) (visitElements place (start + 1) elements)

end

def machineProblems (document : Json) (place : Location) : List Problem :=
  (visit place document {}).1

end ProseSchema.StatesLanguage
