import ProseSchema.Proofs.MachineReports

namespace ProseSchema

namespace Problem

/-- Is the problem neither one of machines nor a repeated name? -/
def isOther (p : Problem) : Bool :=
  !p.isMachineLevel && !p.isRepeatedName

lemma isOther_of_isLocal {p : Problem} (h : p.isLocal = true) : p.isOther = true := by
  rw [isOther, isMachineLevel_of_isLocal h, isRepeatedName_of_isLocal h]
  rfl

lemma perm_by_kind (problems : List Problem) :
    problems.Perm (problems.filter isMachineLevel ++ problems.filter isRepeatedName ++
      problems.filter isOther) := by
  induction problems with
  | nil => exact .nil
  | cons p problems ih =>
    cases hm : p.isMachineLevel with
    | true =>
      have hr : p.isRepeatedName = false := by cases p <;> simp_all [isMachineLevel, isRepeatedName]
      simpa [isOther, hm, hr] using ih
    | false =>
      cases hr : p.isRepeatedName with
      | true =>
        simp only [List.filter_cons, isOther, hm, hr, Bool.not_true, Bool.and_false, Bool.false_eq_true,
          if_false, if_true, List.append_assoc, List.cons_append]
        refine (ih.cons p).trans ?_
        rw [List.append_assoc]
        exact List.perm_middle.symm
      | false =>
        simp only [List.filter_cons, isOther, hm, hr, Bool.not_false, Bool.and_self, Bool.false_eq_true,
          if_false, if_true]
        exact (ih.cons p).trans List.perm_middle.symm

end Problem

namespace StatesLanguage

/-- The problems within the states of a machine, one by one; `place` is that of the states. -/
def insideProblems (place : Location) (states : List (String × Json)) : List Problem :=
  states.flatMap fun state => if state.2.hasType .object then stateProblems state.2 (place.key state.1) else []

/-- The problems within the states of an object, if it is a machine, and with its handlers. -/
def localReports : Trail → List Problem
  | [] => []
  | site :: _ =>
    insideProblems (site.place.key "States") ((statesOf? site.members).getD []) ++
      (handlerFieldProblems site.place site.members "Retry" ++
        handlerFieldProblems site.place site.members "Catch")

/-- Besides problems of machines and repeated names, the stage reports these, whatever is remembered. -/
def Finds (stage : Stage) (problems : List Problem) : Prop :=
  ∀ walk, (stage walk).1.filter Problem.isOther = problems

lemma Finds.andThen {a b : Stage} {problems later : List Problem} (ha : Finds a problems)
    (hb : Finds b later) : Finds (Stage.andThen a b) (problems ++ later) := by
  intro walk
  change ((a walk).1 ++ (b (a walk).2).1).filter _ = _
  rw [List.filter_append, ha walk, hb (a walk).2]

lemma finds_report_local {problems : List Problem} (h : ∀ p ∈ problems, p.isLocal = true) :
    Finds (.report problems) problems :=
  fun _ => List.filter_eq_self.mpr fun p hp => Problem.isOther_of_isLocal (h p hp)

lemma finds_nil {stage : Stage} (h : ∀ walk, ∀ p ∈ (stage walk).1, p.isOther = false) :
    Finds stage [] :=
  fun walk => List.filter_eq_nil_iff.mpr fun p hp => by simp [h walk p hp]

lemma finds_skip : Finds .skip [] :=
  fun _ => rfl

lemma finds_noteName (name : String) (place : Location) : Finds (noteName name place) [] := by
  apply finds_nil
  intro walk p hp
  unfold noteName at hp
  cases hl : walk.firstSites.lookup name with
  | none => simp [hl] at hp
  | some first =>
    obtain rfl : p = .duplicateState name place first := by simpa [hl] using hp
    rfl

lemma finds_noteStates (place : Location) (states : List (String × Json)) :
    Finds (noteStates place states) (insideProblems place states) := by
  induction states with
  | nil => exact finds_skip
  | cons state states ih =>
    refine (finds_report_local ?_).andThen ((finds_noteName _ _).andThen ih)
    split
    · exact stateProblems_isLocal state.2 _
    · simp

lemma finds_enterMachine (place : Location) (members states : List (String × Json)) :
    Finds (enterMachine place members states) (insideProblems (place.key "States") states) := by
  have hmissing : Finds (.report (((startOf? members).toList.filter fun name =>
      (states.lookup name).isNone).map (Problem.missingStart · place))) [] := by
    apply finds_nil
    intro _
    exact List.forall_mem_map.mpr fun _ _ => rfl
  have hend : Finds (.report (if states.any fun state => isTerminal state.2 then []
      else [.noTerminalState place])) [] := by
    apply finds_nil
    intro _ p hp
    change p ∈ (if _ then _ else _) at hp
    split at hp
    · simp at hp
    · obtain rfl := List.mem_singleton.mp hp
      rfl
  have hpush : Finds (fun walk =>
      ([], { walk with machines := ⟨states, (startOf? members).toList⟩ :: walk.machines })) [] :=
    fun _ => rfl
  have h := hmissing.andThen (hpush.andThen ((finds_noteStates (place.key "States") states).andThen hend))
  rwa [List.append_nil] at h

lemma finds_transition (place : Location) (members : List (String × Json)) (field : String) :
    Finds (transition place members field) [] := by
  apply finds_nil
  intro walk p hp
  unfold transition at hp
  split at hp
  · split at hp
    · simp at hp
    · obtain rfl := List.mem_singleton.mp hp
      rfl
  · simp at hp

lemma finds_arrive (site : Site) (outer : Trail) :
    Finds (arrive site.place site.members) (localReports (site :: outer)) := by
  have hhandlers := finds_report_local (List.forall_mem_append.mpr
    ⟨handlerFieldProblems_isLocal site.place site.members "Retry",
      handlerFieldProblems_isLocal site.place site.members "Catch"⟩)
  refine Finds.andThen ?machine ((finds_transition _ _ "Next").andThen
    ((finds_transition _ _ "Default").andThen hhandlers))
  cases statesOf? site.members with
  | some states => exact finds_enterMachine _ _ states
  | none => exact finds_skip

lemma finds_depart (place : Location) (members : List (String × Json)) : Finds (depart place members) [] := by
  unfold depart
  split
  · apply finds_nil
    intro walk p hp
    unfold leaveMachine at hp
    split at hp
    · simp at hp
    · obtain ⟨state, _, rfl⟩ := List.mem_map.mp hp
      rfl
  · exact finds_skip

mutual

theorem finds_visit (outer : Trail) (place : Location) (value : Json) :
    Finds (visit place value) ((trails outer place value).flatMap localReports) := by
  match value with
  | .object members =>
    have ih := finds_visitMembers (⟨place, members⟩ :: outer) place members
    rw [visit, trails, List.flatMap_cons]
    have h := (finds_arrive ⟨place, members⟩ outer).andThen (ih.andThen (finds_depart place members))
    rwa [List.append_nil] at h
  | .null | .bool _ | .number _ | .string _ | .array _ => exact finds_skip

theorem finds_visitMembers (outer : Trail) (place : Location) (members : List (String × Json)) :
    Finds (visitMembers place members) ((memberTrails outer place members).flatMap localReports) := by
  match members with
  | [] => exact finds_skip
  | (name, value) :: members =>
    rw [visitMembers_cons, memberTrails_cons, List.flatMap_append]
    refine Finds.andThen ?_ (finds_visitMembers outer place members)
    cases value with
    | array elements => exact finds_visitElements outer (place.key name) 0 elements
    | _ => exact finds_visit outer (place.key name) _

theorem finds_visitElements (outer : Trail) (place : Location) (start : Nat) (elements : List Json) :
    Finds (visitElements place start elements)
      ((elementTrails outer place start elements).flatMap localReports) := by
  match elements with
  | [] => exact finds_skip
  | element :: elements =>
    rw [visitElements, elementTrails, List.flatMap_append]
    exact (finds_visit outer (place.index start) element).andThen
      (finds_visitElements outer place (start + 1) elements)

end

/-- The problems of the walk, told from the visited objects: those of machines and transitions, the repeated
names, and those within states and with handlers. -/
theorem machineProblems_perm (document : Json) (root : Location) :
    (machineProblems document root).Perm
      ((visits root document).flatMap (reports (visits root document)) ++
        (noteAll ((visits root document).flatMap sightings) []).1 ++
        (visits root document).flatMap localReports) := by
  have he := visit_document_effect document root
  have hm : ((machineProblems document root).filter Problem.isMachineLevel).Perm
      ((visits root document).flatMap (reports (visits root document))) := by
    have ha : allReports (visits root document) =
        (visits root document).flatMap (reports (visits root document)) :=
      List.flatMap_congr fun trail hv => reports_trailsFrom hv
    rw [← ha]
    exact he.reports_perm
  have hr : (machineProblems document root).filter Problem.isRepeatedName =
      (noteAll ((visits root document).flatMap sightings) []).1 :=
    he.repeated_eq
  have ho : (machineProblems document root).filter Problem.isOther =
      (visits root document).flatMap localReports :=
    finds_visit [] root document {}
  refine (Problem.perm_by_kind (machineProblems document root)).trans ?_
  rw [hr, ho]
  exact (hm.append_right _).append_right _

end StatesLanguage

end ProseSchema
