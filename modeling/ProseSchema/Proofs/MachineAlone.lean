import ProseSchema.Proofs.WalkOverTrails

/-!
# Machines on their own

What is reported of a machine depends on nothing around it, but for state names that were used before. Main
statement: wherever the walk enters a machine, it reports one block of problems there, the same as for the
machine alone, and it leaves the machines around as they were.
-/

namespace ProseSchema.StatesLanguage

/-- The problems other than repeated state names. -/
def unrepeated (problems : List Problem) : List Problem :=
  problems.filter fun problem => !problem.isRepeatedName

@[simp] lemma unrepeated_append (problems later : List Problem) :
    unrepeated (problems ++ later) = unrepeated problems ++ unrepeated later :=
  List.filter_append problems later

/-- What is walked over at an object before the member that follows some others. -/
def untilMember (place : Location) (before : List (String × Json)) (member : String × Json)
    (after : List (String × Json)) : Stage :=
  Stage.andThen (arrive place (before ++ member :: after)) (visitMembers place before)

/-- The walk over a document enters a value: where the value stands, what was reported up to there, and what
is remembered there. -/
inductive Enters (document : Json) (root : Location) : Location → Json → List Problem → Walk → Prop
  | document : Enters document root root document [] {}
  | member {place : Location} {name : String} {value : Json} {before after : List (String × Json)}
    {reported : List Problem} {walk : Walk}
    (h : Enters document root place (.object (before ++ (name, value) :: after)) reported walk)
    (hv : ∀ elements, value ≠ .array elements) {passed : Stage}
    (hp : passed = untilMember place before (name, value) after) :
    Enters document root (place.key name) value (reported ++ (passed walk).1) (passed walk).2
  | element {place : Location} {name : String} {value : Json} {front back : List Json}
    {before after : List (String × Json)} {reported : List Problem} {walk : Walk}
    (h : Enters document root place (.object (before ++ (name, .array (front ++ value :: back)) :: after))
      reported walk) {passed : Stage}
    (hp : passed = Stage.andThen (untilMember place before (name, .array (front ++ value :: back)) after)
      (visitElements (place.key name) 0 front)) :
    Enters document root ((place.key name).index front.length) value (reported ++ (passed walk).1)
      (passed walk).2

/-! The walk up to a value, at the value and behind it. -/

lemma visitMembers_append (place : Location) (members later : List (String × Json)) :
    visitMembers place (members ++ later) =
      Stage.andThen (visitMembers place members) (visitMembers place later) := by
  induction members with
  | nil => rfl
  | cons member members ih =>
    rw [List.cons_append, visitMembers_cons, visitMembers_cons, ih, Stage.andThen_assoc]

lemma visitElements_append (place : Location) (start : Nat) (elements later : List Json) :
    visitElements place start (elements ++ later) =
      Stage.andThen (visitElements place start elements)
        (visitElements place (start + elements.length) later) := by
  induction elements generalizing start with
  | nil => rfl
  | cons element elements ih =>
    rw [List.cons_append, visitElements, visitElements, ih, Stage.andThen_assoc, List.length_cons,
      Nat.add_assoc, Nat.add_comm 1]

/-- What is reported between entering a value and leaving it stands in one place among the problems of the
document, behind all that was reported before. -/
lemma Enters.exists_after {document : Json} {root place : Location} {value : Json} {reported : List Problem}
    {walk : Walk} (h : Enters document root place value reported walk) :
    ∃ after, machineProblems document root = reported ++ (visit place value walk).1 ++ after := by
  induction h with
  | document => exact ⟨[], (List.append_nil _).symm⟩
  | @member place name value before after reported walk _ hv passed hp ih =>
    obtain ⟨later, ih⟩ := ih
    have hf : visitField place name value = visit (place.key name) value := by
      cases value with
      | array elements => exact absurd rfl (hv elements)
      | _ => rfl
    have hs : visit place (.object (before ++ (name, value) :: after)) =
        Stage.andThen passed (Stage.andThen (visit (place.key name) value)
          (Stage.andThen (visitMembers place after)
            (depart place (before ++ (name, value) :: after)))) := by
      rw [visit, visitMembers_append, visitMembers_cons, hf]
      simp only [hp, untilMember, Stage.andThen_assoc]
    rw [ih, hs]
    simp only [Stage.andThen, List.append_assoc, List.append_cancel_left_eq]
    exact ⟨_, rfl⟩
  | @element place name value front back before after reported walk _ passed hp ih =>
    obtain ⟨later, ih⟩ := ih
    have hs : visit place (.object (before ++ (name, .array (front ++ value :: back)) :: after)) =
        Stage.andThen passed (Stage.andThen (visit ((place.key name).index front.length) value)
          (Stage.andThen (visitElements (place.key name) (front.length + 1) back)
            (Stage.andThen (visitMembers place after)
              (depart place (before ++ (name, .array (front ++ value :: back)) :: after))))) := by
      rw [visit, visitMembers_append, visitMembers_cons, visitField, visitElements_append, visitElements]
      simp only [hp, untilMember, Stage.andThen_assoc, Nat.zero_add]
    rw [ih, hs]
    simp only [Stage.andThen, List.append_assoc, List.append_cancel_left_eq]
    exact ⟨_, rfl⟩

/-- Every visited object is entered. -/
lemma Visited.enters {document : Json} {root : Location} {site : Site} {outer : Trail}
    (h : Visited document root (site :: outer)) :
    ∃ reported walk, Enters document root site.place (.object site.members) reported walk := by
  obtain ⟨members, rfl, hr⟩ := h
  generalize ht : site :: outer = trail at hr
  induction hr generalizing site outer with
  | refl =>
    cases ht
    exact ⟨_, _, .document⟩
  | tail _ hi ih =>
    cases hi with
    | @member around _ name inner hm =>
      cases ht
      obtain ⟨reported, walk, he⟩ := ih rfl
      obtain ⟨before, after, hsplit⟩ := List.append_of_mem hm
      rw [hsplit] at he
      exact ⟨_, _, he.member (by simp) rfl⟩
    | @element around _ name elements i inner hm hi =>
      cases ht
      obtain ⟨reported, walk, he⟩ := ih rfl
      obtain ⟨before, after, hsplit⟩ := List.append_of_mem hm
      obtain ⟨hlt, hget⟩ := List.getElem?_eq_some_iff.mp hi
      have hfront : (elements.take i).length = i := by
        rw [List.length_take, Nat.min_eq_left (Nat.le_of_lt hlt)]
      have helements : elements = elements.take i ++ .object inner :: elements.drop (i + 1) := by
        rw [← hget, ← List.drop_eq_getElem_cons hlt, List.take_append_drop]
      rw [hsplit, helements] at he
      have hi := he.element rfl
      rw [hfront] at hi
      exact ⟨_, _, hi⟩

/-! What lies below the innermost machine. -/

/-- A part of the walk minds only the innermost machine: with the same one on top of two stacks it reports
the same, does the same to that machine, and leaves the machines below. -/
def MindsInnermost (stage : Stage) : Prop :=
  ∀ (machine : OpenMachine) (below other : List OpenMachine) (walk alone : Walk),
    walk.machines = machine :: below → alone.machines = machine :: other →
    unrepeated (stage walk).1 = unrepeated (stage alone).1 ∧
      ∃ left, (stage walk).2.machines = left :: below ∧ (stage alone).2.machines = left :: other

/-- A part of the walk minds no machine around it. -/
def MindsNone (stage : Stage) : Prop :=
  ∀ walk alone : Walk, unrepeated (stage walk).1 = unrepeated (stage alone).1 ∧
    (stage walk).2.machines = walk.machines

lemma MindsNone.mindsInnermost {stage : Stage} (h : MindsNone stage) : MindsInnermost stage := by
  intro machine below other walk alone hw ha
  refine ⟨(h walk alone).1, machine, ?_, ?_⟩
  · rw [(h walk alone).2, hw]
  · rw [(h alone walk).2, ha]

lemma MindsInnermost.andThen {a b : Stage} (ha : MindsInnermost a) (hb : MindsInnermost b) :
    MindsInnermost (Stage.andThen a b) := by
  intro machine below other walk alone hw hal
  obtain ⟨hp, left, hl, hal'⟩ := ha machine below other walk alone hw hal
  obtain ⟨hq, hm⟩ := hb left below other (a walk).2 (a alone).2 hl hal'
  refine ⟨?_, hm⟩
  change unrepeated ((a walk).1 ++ (b (a walk).2).1) = unrepeated ((a alone).1 ++ (b (a alone).2).1)
  rw [unrepeated_append, unrepeated_append, hp, hq]

lemma MindsNone.andThen {a b : Stage} (ha : MindsNone a) (hb : MindsNone b) :
    MindsNone (Stage.andThen a b) := by
  intro walk alone
  obtain ⟨hp, hm⟩ := ha walk alone
  obtain ⟨hq, hn⟩ := hb (a walk).2 (a alone).2
  refine ⟨?_, hn.trans hm⟩
  change unrepeated ((a walk).1 ++ (b (a walk).2).1) = unrepeated ((a alone).1 ++ (b (a alone).2).1)
  rw [unrepeated_append, unrepeated_append, hp, hq]

lemma mindsNone_report (problems : List Problem) : MindsNone (.report problems) :=
  fun _ _ => ⟨rfl, rfl⟩

lemma mindsNone_noteName (name : String) (place : Location) : MindsNone (noteName name place) := by
  have hn (walk : Walk) : unrepeated (noteName name place walk).1 = [] := by
    unfold noteName
    cases walk.firstSites.lookup name <;> rfl
  intro walk alone
  refine ⟨(hn walk).trans (hn alone).symm, ?_⟩
  exact (noteName_effect place walk name).machines_eq

lemma mindsInnermost_noteStates (place : Location) (states : List (String × Json)) :
    MindsInnermost (noteStates place states) := by
  induction states with
  | nil => exact (mindsNone_report []).mindsInnermost
  | cons state states ih =>
    exact (mindsNone_report _).mindsInnermost.andThen
      ((mindsNone_noteName _ _).mindsInnermost.andThen ih)

lemma mindsInnermost_transition (place : Location) (members : List (String × Json)) (field : String) :
    MindsInnermost (transition place members field) := by
  intro machine below other walk alone hw ha
  unfold transition
  rw [hw, ha]
  cases (members.lookup field).bind Json.string? with
  | none => exact ⟨rfl, machine, hw, ha⟩
  | some target =>
    cases hm : machine.hasState target with
    | true => simp [hm]
    | false => simp [hm, hw, ha]

lemma mindsInnermost_ownTransitions (place : Location) (members : List (String × Json)) :
    MindsInnermost (ownTransitions place members) :=
  (mindsInnermost_transition place members "Next").andThen
    ((mindsInnermost_transition place members "Default").andThen (mindsNone_report _).mindsInnermost)

/-- A machine that is put on the stack, walked over and taken from the stack again. -/
def enclose (place : Location) (machine : OpenMachine) (stage : Stage) : Stage :=
  Stage.andThen (fun walk => ([], { walk with machines := machine :: walk.machines }))
    (Stage.andThen stage (leaveMachine place))

/-- Once it is on the stack, a machine hides those around it. -/
lemma MindsInnermost.enclose {stage : Stage} (h : MindsInnermost stage) (place : Location)
    (machine : OpenMachine) : MindsNone (enclose place machine stage) := by
  intro walk alone
  obtain ⟨hp, left, hl, ha⟩ := h machine walk.machines alone.machines
    { walk with machines := machine :: walk.machines } { alone with machines := machine :: alone.machines }
    rfl rfl
  simp only [StatesLanguage.enclose, Stage.andThen, List.nil_append, unrepeated_append, hp, leaveMachine,
    hl, ha, and_self]

lemma visit_machine_eq {place : Location} {members states : List (String × Json)}
    (h : statesOf? members = some states) : ∃ missing noTerminal : List Problem,
    visit place (.object members) = Stage.andThen (.report missing)
      (enclose place ⟨states, (startOf? members).toList⟩
        (Stage.andThen (noteStates (place.key "States") states)
          (Stage.andThen (.report noTerminal)
            (Stage.andThen (ownTransitions place members) (visitMembers place members))))) := by
  simp only [visit, arrive, depart, h, Option.isSome_some, if_true, enterMachine, ownTransitions, enclose,
    Stage.andThen_assoc]
  exact ⟨_, _, rfl⟩

lemma mindsNone_machine {place : Location} {members states : List (String × Json)}
    (h : statesOf? members = some states) (ih : MindsInnermost (visitMembers place members)) :
    MindsNone (visit place (.object members)) := by
  obtain ⟨missing, noTerminal, hv⟩ := visit_machine_eq h
  have hinside := (mindsInnermost_noteStates (place.key "States") states).andThen
    ((mindsNone_report noTerminal).mindsInnermost.andThen
      ((mindsInnermost_ownTransitions place members).andThen ih))
  rw [hv]
  exact (mindsNone_report missing).andThen (hinside.enclose place _)

mutual

theorem mindsInnermost_visit (place : Location) (value : Json) : MindsInnermost (visit place value) := by
  match value with
  | .object members =>
    have ih := mindsInnermost_visitMembers place members
    cases hs : statesOf? members with
    | some states => exact (mindsNone_machine hs ih).mindsInnermost
    | none =>
      have hv : visit place (.object members) =
          Stage.andThen (ownTransitions place members) (visitMembers place members) := by
        simp only [visit, arrive, depart, hs, ownTransitions, Option.isSome_none, Bool.false_eq_true,
          if_false, Stage.andThen_assoc]
        rw [Stage.skip_andThen, Stage.andThen_skip]
      rw [hv]
      exact (mindsInnermost_ownTransitions place members).andThen ih
  | .null | .bool _ | .number _ | .string _ | .array _ => exact (mindsNone_report []).mindsInnermost

theorem mindsInnermost_visitMembers (place : Location) (members : List (String × Json)) :
    MindsInnermost (visitMembers place members) := by
  match members with
  | [] => exact (mindsNone_report []).mindsInnermost
  | (name, value) :: members =>
    rw [visitMembers_cons]
    refine MindsInnermost.andThen ?_ (mindsInnermost_visitMembers place members)
    cases value with
    | array elements => exact mindsInnermost_visitElements (place.key name) 0 elements
    | _ => exact mindsInnermost_visit (place.key name) _

theorem mindsInnermost_visitElements (place : Location) (start : Nat) (elements : List Json) :
    MindsInnermost (visitElements place start elements) := by
  match elements with
  | [] => exact (mindsNone_report []).mindsInnermost
  | element :: elements =>
    exact (mindsInnermost_visit (place.index start) element).andThen
      (mindsInnermost_visitElements place (start + 1) elements)

end

/-- Machines are checked on their own. The walk enters every visited object. Where it enters a machine, the
problems between entering and leaving are a block among those of the document; but for repeated names they
are those of the machine as a document of its own, and the stack of machines around is left as it was. -/
theorem machine_checked_alone (document : Json) (root : Location) :
    (∀ site outer, Visited document root (site :: outer) →
      ∃ reported walk, Enters document root site.place (.object site.members) reported walk) ∧
    ∀ place members states reported walk, statesOf? members = some states →
      Enters document root place (.object members) reported walk →
      (∃ after, machineProblems document root =
        reported ++ (visit place (.object members) walk).1 ++ after) ∧
      unrepeated (visit place (.object members) walk).1 =
        unrepeated (machineProblems (.object members) place) ∧
      (visit place (.object members) walk).2.machines = walk.machines := by
  constructor
  · intro site outer h
    exact h.enters
  · intro place members states reported walk hs he
    have hn := mindsNone_machine hs (mindsInnermost_visitMembers place members) walk {}
    exact ⟨he.exists_after, hn.1, hn.2⟩

/-- A branch with a transition to a state of the machine around it, and a state that has a name of that
machine. -/
def branch : Json :=
  .object [("StartAt", .string "A"), ("States", .object [("A", .object [("Next", .string "B")]),
    ("P", .object [("Type", .string "Succeed")])])]

def branchedMachine : Json :=
  .object [("StartAt", .string "P"), ("States", .object [
    ("P", .object [("Branches", .array [.null, branch]), ("Next", .string "B")]),
    ("B", .object [("End", .bool true)])])]

/-- The branch is entered inside another machine. The transition leads nowhere and the state `P` is not led to,
whether the machine around it is there or not. -/
theorem branch_checked_alone :
    let place : Location := ⟨"M", [.key "States", .key "P", .key "Branches", .index 1]⟩
    (statesOf? branch.members).isSome ∧
    ∃ reported walk, Enters branchedMachine (.ofRoot "M") place branch reported walk ∧
      (∃ after, machineProblems branchedMachine (.ofRoot "M") =
        reported ++ (visit place branch walk).1 ++ after) ∧
      unrepeated (visit place branch walk).1 =
        [.noSuchState "B" (((place.key "States").key "A")) "Next", .unreachableState place "P"] ∧
      (visit place branch walk).2.machines = walk.machines := by
  intro place
  have hs : (statesOf? branch.members).isSome := by decide
  obtain ⟨trail, hv, hsite⟩ : ∃ trail ∈ visits (.ofRoot "M") branchedMachine,
      trail.head? = some ⟨place, branch.members⟩ := by decide
  obtain ⟨site, outer, rfl⟩ : ∃ site outer, trail = site :: outer := by
    cases trail with
    | nil => simp at hsite
    | cons site outer => exact ⟨site, outer, rfl⟩
  obtain rfl : site = ⟨place, branch.members⟩ := by simpa using hsite
  have h := machine_checked_alone branchedMachine (.ofRoot "M")
  obtain ⟨reported, walk, he⟩ := h.1 _ _ ((mem_visits_iff _ _ _).mp hv)
  obtain ⟨states, hstates⟩ := Option.isSome_iff_exists.mp hs
  obtain ⟨hblock, hsame, hstack⟩ := h.2 _ _ states _ _ hstates he
  refine ⟨hs, reported, walk, he, hblock, ?_, hstack⟩
  exact hsame.trans rfl

end ProseSchema.StatesLanguage
