import ProseSchema.Proofs.VisitedObjects
import ProseSchema.Proofs.WalkEffects

/-!
# The walk told from the trails

What the walk over a value reports, sights and leaves on the stack, as lists over the trails of the objects
that are visited from the value on. The stack of machines does not occur in these lists: the innermost
machine of an object is read off its trail.
-/

namespace ProseSchema.StatesLanguage

/-- The trail of the innermost machine on a trail; it is empty when there is none. -/
def innermost (trail : Trail) : Trail :=
  trail.dropWhile fun site => (statesOf? site.members).isNone

def statesAt? : Trail → Option (List (String × Json))
  | [] => none
  | site :: _ => statesOf? site.members

def targets : Trail → List String
  | [] => []
  | site :: _ => (target? site.members "Next").toList ++ (target? site.members "Default").toList

/-- The names that the listed objects of a machine lead to. -/
def targetsIn (machine : Trail) (found : List Trail) : List String :=
  found.flatMap fun trail => if innermost trail = machine then targets trail else []

/-- The problem of each state of a machine that is not its start and that no listed object of the machine
leads to. -/
def unreachableReports (found : List Trail) (site : Site) (outer : Trail)
    (states : List (String × Json)) : List Problem :=
  (states.filter fun state =>
      startOf? site.members ≠ some state.1 ∧ state.1 ∉ targetsIn (site :: outer) found).map
    fun state => .unreachableState site.place state.1

/-- The problems of an object: those of the machine that it is, if it is one, and those of its transitions,
if it is in a machine. -/
def reports (found : List Trail) : Trail → List Problem
  | [] => []
  | site :: outer =>
    ((statesOf? site.members).map fun states =>
      entryReports site.place site.members states ++ unreachableReports found site outer states).getD [] ++
    ((statesAt? (innermost (site :: outer))).map fun states =>
      transitionReports states site.place site.members "Next" ++
        transitionReports states site.place site.members "Default").getD []

/-- The names of the states of a machine, with the place of its states. -/
def sightings : Trail → List (String × Location)
  | [] => []
  | site :: _ => ((statesOf? site.members).getD []).map fun state => (state.1, site.place.key "States")

lemma innermost_machine {site : Site} {outer : Trail} {states : List (String × Json)}
    (h : statesOf? site.members = some states) : innermost (site :: outer) = site :: outer := by
  simp [innermost, h]

lemma innermost_other {site : Site} {outer : Trail} (h : statesOf? site.members = none) :
    innermost (site :: outer) = innermost outer := by
  simp [innermost, h]

lemma innermost_suffix (trail : Trail) : innermost trail <:+ trail :=
  List.dropWhile_suffix _

/-- The innermost machine of an object inside a machine is not outside that machine. -/
lemma suffix_innermost {site : Site} {outer trail : Trail} {states : List (String × Json)}
    (h : statesOf? site.members = some states) (hs : site :: outer <:+ trail) :
    site :: outer <:+ innermost trail := by
  induction trail with
  | nil => exact absurd hs (by simp)
  | cons other trail ih =>
    rcases List.suffix_cons_iff.mp hs with he | hs
    · have hi : innermost (other :: trail) = site :: outer := by rw [← he, innermost_machine h]
      exact ⟨[], hi.symm⟩
    · cases ho : statesOf? other.members with
      | none =>
        rw [innermost_other ho]
        exact ih hs
      | some _ =>
        rw [innermost_machine ho]
        exact hs.trans (List.suffix_cons _ _)

lemma targetsIn_append (machine : Trail) (found later : List Trail) :
    targetsIn machine (found ++ later) = targetsIn machine found ++ targetsIn machine later :=
  List.flatMap_append

lemma targetsIn_cons_self (trail : Trail) (found : List Trail) :
    targetsIn (innermost trail) (trail :: found) = targets trail ++ targetsIn (innermost trail) found := by
  simp [targetsIn]

/-- Nothing inside a machine leads to states of a machine around it. -/
lemma targetsIn_outer {place : Location} {members : List (String × Json)} {outer : Trail}
    {states : List (String × Json)} (h : statesOf? members = some states) :
    targetsIn (innermost outer) (trails outer place (.object members)) = [] := by
  apply List.flatMap_eq_nil_iff.mpr
  intro trail ht
  apply if_neg
  intro he
  obtain ⟨_, hv, hr⟩ := reached_of_mem_trails _ _ _ _ ht
  cases hv
  have hs : (⟨place, members⟩ : Site) :: outer <:+ innermost trail :=
    suffix_innermost h (suffix_of_reached hr)
  rw [he] at hs
  exact absurd (hs.trans (innermost_suffix outer)).length_le (by simp)

/-- The problems of the listed objects, each taken with what is inside it. -/
def allReports (found : List Trail) : List Problem :=
  found.flatMap fun trail => reports (trailsFrom trail) trail

lemma allReports_append (found later : List Trail) :
    allReports (found ++ later) = allReports found ++ allReports later :=
  List.flatMap_append

def visitField (place : Location) (name : String) : Json → Stage
  | .array elements => visitElements (place.key name) 0 elements
  | value => visit (place.key name) value

lemma visitMembers_cons (place : Location) (name : String) (value : Json)
    (members : List (String × Json)) :
    visitMembers place ((name, value) :: members) =
      Stage.andThen (visitField place name value) (visitMembers place members) := by
  cases value <;> rfl

/-- The effect of walking over the objects of some trails, when the stack is inside a machine. -/
abbrev WalksOver (stage : Stage) (machine : Trail) (found : List Trail) : Prop :=
  ∀ walk : Walk, innermostStates? walk.machines = statesAt? machine →
    Effect stage walk (allReports found) (found.flatMap sightings)
      (follow (targetsIn machine found) walk.machines)

lemma WalksOver.skip (machine : Trail) : WalksOver .skip machine [] :=
  fun _ _ => Effect.skip.congr (.refl _) rfl (follow_nil _).symm

lemma WalksOver.andThen {a b : Stage} {machine : Trail} {found later : List Trail}
    (ha : WalksOver a machine found) (hb : WalksOver b machine later) :
    WalksOver (Stage.andThen a b) machine (found ++ later) := by
  intro walk hw
  have hb' (walk' : Walk) (hw' : walk'.machines = follow (targetsIn machine found) walk.machines) :
      Effect b walk' (allReports later) (later.flatMap sightings)
        (follow (targetsIn machine (found ++ later)) walk.machines) := by
    have hs : innermostStates? walk'.machines = statesAt? machine := by
      rw [hw', innermostStates?_follow, hw]
    rw [targetsIn_append, follow_append, ← hw']
    exact hb walk' hs
  refine ((ha walk hw).andThen hb').congr ?_ List.flatMap_append.symm rfl
  rw [allReports_append]

/-- The fields of an object that lead to states, and then its handlers. -/
def ownTransitions (place : Location) (members : List (String × Json)) : Stage :=
  Stage.andThen (transition place members "Next")
    (Stage.andThen (transition place members "Default")
      (.report (handlerFieldProblems place members "Retry" ++
        handlerFieldProblems place members "Catch")))

lemma ownTransitions_effect (site : Site) (outer : Trail) (walk : Walk)
    (hw : innermostStates? walk.machines = statesAt? (innermost (site :: outer))) :
    Effect (ownTransitions site.place site.members) walk
      (((statesAt? (innermost (site :: outer))).map fun states =>
        transitionReports states site.place site.members "Next" ++
          transitionReports states site.place site.members "Default").getD [])
      [] (follow (targets (site :: outer)) walk.machines) := by
  have hl : ∀ p ∈ handlerFieldProblems site.place site.members "Retry" ++
      handlerFieldProblems site.place site.members "Catch", p.isLocal = true := by
    rw [List.forall_mem_append]
    exact ⟨handlerFieldProblems_isLocal _ _ _, handlerFieldProblems_isLocal _ _ _⟩
  have hdefault (walk' : Walk)
      (hw' : walk'.machines = follow (target? site.members "Next").toList walk.machines) :
      Effect (transition site.place site.members "Default") walk'
        (((innermostStates? walk.machines).map fun states =>
          transitionReports states site.place site.members "Default").getD [])
        [] (follow (targets (site :: outer)) walk.machines) := by
    have h := transition_effect site.place site.members walk' "Default"
    rwa [hw', innermostStates?_follow, ← follow_append] at h
  have hhandlers (walk' : Walk)
      (hw' : walk'.machines = follow (targets (site :: outer)) walk.machines) :
      Effect (.report (handlerFieldProblems site.place site.members "Retry" ++
        handlerFieldProblems site.place site.members "Catch")) walk' [] []
        (follow (targets (site :: outer)) walk.machines) := by
    rw [← hw']
    exact .report_local _ hl
  have h := (transition_effect site.place site.members walk "Next").andThen fun walk' hw' =>
    (hdefault walk' hw').andThen hhandlers
  refine h.congr ?_ rfl rfl
  rw [hw]
  cases statesAt? (innermost (site :: outer)) with
  | none => exact .refl _
  | some states =>
    simp only [Option.map_some, Option.getD_some, List.append_nil]
    exact .refl _

/-- An object that is no machine: its own transitions, and then what is inside it. -/
lemma visit_other {place : Location} {members : List (String × Json)} {outer : Trail}
    (hm : statesOf? members = none)
    (ih : WalksOver (visitMembers place members) (innermost (⟨place, members⟩ :: outer))
      (memberTrails (⟨place, members⟩ :: outer) place members)) :
    WalksOver (visit place (.object members)) (innermost outer) (trails outer place (.object members)) := by
  have hi : innermost (⟨place, members⟩ :: outer) = innermost outer := innermost_other hm
  have hown : WalksOver (ownTransitions place members) (innermost outer) [⟨place, members⟩ :: outer] := by
    intro walk hw
    refine (ownTransitions_effect ⟨place, members⟩ outer walk (hw.trans (by rw [hi]))).congr ?_ ?_ ?_
    · simp [allReports, reports, hm]
    · simp [sightings, hm]
    · rw [← hi, targetsIn_cons_self]
      simp [targetsIn]
  have hv : visit place (.object members) =
      Stage.andThen (Stage.andThen .skip (ownTransitions place members))
        (Stage.andThen (visitMembers place members) .skip) := by
    simp only [visit, arrive, depart, hm, ownTransitions]
    rfl
  rw [hi] at ih
  rw [hv, trails]
  have h := ((WalksOver.skip _).andThen hown).andThen (ih.andThen (.skip _))
  rwa [List.nil_append, List.append_nil] at h

/-- Told by what a machine has taken as incoming when it is left: its start, and of the names that objects
lead to those of its states. -/
lemma unreachableReports_eq (found : List Trail) (site : Site) (outer : Trail)
    (states : List (String × Json)) (machine : OpenMachine) (hs : machine.states = states) :
    unreachableReports found site outer states =
      (states.filter fun state => state.1 ∉
        ((targetsIn (site :: outer) found).filter machine.hasState).reverse ++
          (startOf? site.members).toList).map fun state => .unreachableState site.place state.1 := by
  unfold unreachableReports
  congr 1
  apply List.filter_congr
  intro state hstate
  have hk : machine.hasState state.1 = true := by
    rw [OpenMachine.hasState, hs]
    exact Json.lookup_isSome_of_mem hstate
  simp [hk, and_comm]

/-- The problems in the object of a machine: its own ones, and those of the objects inside it. -/
lemma allReports_machine {place : Location} {members : List (String × Json)} {outer : Trail}
    {states : List (String × Json)} (hm : statesOf? members = some states) :
    allReports (trails outer place (.object members)) =
      (entryReports place members states ++
        unreachableReports (trailsFrom (⟨place, members⟩ :: outer)) ⟨place, members⟩ outer states ++
        (transitionReports states place members "Next" ++
          transitionReports states place members "Default")) ++
      allReports (memberTrails (⟨place, members⟩ :: outer) place members) := by
  have hst : statesAt? (innermost (⟨place, members⟩ :: outer)) = some states := by
    rw [innermost_machine hm]
    exact hm
  rw [trails, allReports, List.flatMap_cons, reports, hst]
  simp only [hm, Option.map_some, Option.getD_some]
  rfl

/-- A machine: it is put on the stack, its own transitions and what is inside it follow, and it is taken
from the stack again. -/
lemma visit_machine {place : Location} {members : List (String × Json)} {outer : Trail}
    {states : List (String × Json)} (hm : statesOf? members = some states)
    (ih : WalksOver (visitMembers place members) (innermost (⟨place, members⟩ :: outer))
      (memberTrails (⟨place, members⟩ :: outer) place members)) :
    WalksOver (visit place (.object members)) (innermost outer) (trails outer place (.object members)) := by
  intro walk hw
  -- While it is on the stack, the names followed to it are those that its own objects lead to.
  let site : Site := ⟨place, members⟩
  let entered : List OpenMachine := ⟨states, (startOf? members).toList⟩ :: walk.machines
  let inside : List Trail := memberTrails (site :: outer) place members
  have hi : innermost (site :: outer) = site :: outer := innermost_machine hm
  have hst : statesAt? (innermost (site :: outer)) = some states := by rw [hi]; exact hm
  have hown (walk' : Walk) (hw' : walk'.machines = entered) :
      Effect (ownTransitions place members) walk'
        (transitionReports states place members "Next" ++ transitionReports states place members "Default")
        [] (follow (targets (site :: outer)) entered) := by
    have h := ownTransitions_effect site outer walk' (by rw [hw', hst]; rfl)
    rwa [hst, hw'] at h
  have hinside (walk' : Walk) (hw' : walk'.machines = follow (targets (site :: outer)) entered) :
      Effect (visitMembers place members) walk' (allReports inside) (inside.flatMap sightings)
        (follow (targetsIn (site :: outer) (trailsFrom (site :: outer))) entered) := by
    have h := ih walk' (by rw [hw', innermostStates?_follow, hst]; rfl)
    have ht : trailsFrom (site :: outer) = (site :: outer) :: inside := rfl
    have hc := targetsIn_cons_self (site :: outer) inside
    rw [hi] at hc h
    rw [ht, hc, follow_append, ← hw']
    exact h
  have hleave (walk' : Walk)
      (hw' : walk'.machines = follow (targetsIn (site :: outer) (trailsFrom (site :: outer))) entered) :
      Effect (leaveMachine place) walk'
        (unreachableReports (trailsFrom (site :: outer)) site outer states) [] walk.machines := by
    rw [unreachableReports_eq _ _ _ _ ⟨states, (startOf? members).toList⟩ rfl]
    exact leaveMachine_effect place walk' _ _ hw'
  have hv : visit place (.object members) =
      Stage.andThen (Stage.andThen (enterMachine place members states) (ownTransitions place members))
        (Stage.andThen (visitMembers place members) (leaveMachine place)) := by
    simp only [visit, arrive, depart, hm, ownTransitions, Option.isSome_some, if_true]
  rw [hv, targetsIn_outer hm, follow_nil]
  have h := ((enterMachine_effect place members states walk).andThen hown).andThen fun walk' hw' =>
    (hinside walk' hw').andThen hleave
  refine h.congr ?_ ?_ rfl
  · rw [allReports_machine hm]
    simp only [List.append_assoc]
    refine List.Perm.append_left _ ?_
    simp only [← List.append_assoc]
    exact List.perm_append_comm.trans (by simp only [List.append_assoc]; exact .refl _)
  · simp [trails, sightings, hm, inside, site]

mutual

/-- The walk over a value has the effects of the objects that are visited from the value on. -/
theorem visit_walksOver (outer : Trail) (place : Location) (value : Json) :
    WalksOver (visit place value) (innermost outer) (trails outer place value) := by
  match value with
  | .object members =>
    have ih := visitMembers_walksOver (⟨place, members⟩ :: outer) place members
    cases hm : statesOf? members with
    | none => exact visit_other hm ih
    | some states => exact visit_machine hm ih
  | .null | .bool _ | .number _ | .string _ | .array _ => exact WalksOver.skip _

theorem visitMembers_walksOver (outer : Trail) (place : Location) (members : List (String × Json)) :
    WalksOver (visitMembers place members) (innermost outer) (memberTrails outer place members) := by
  match members with
  | [] => exact WalksOver.skip _
  | (name, value) :: members =>
    rw [visitMembers_cons, memberTrails_cons]
    refine WalksOver.andThen ?_ (visitMembers_walksOver outer place members)
    cases value with
    | array elements => exact visitElements_walksOver outer (place.key name) 0 elements
    | _ => exact visit_walksOver outer (place.key name) _

theorem visitElements_walksOver (outer : Trail) (place : Location) (start : Nat) (elements : List Json) :
    WalksOver (visitElements place start elements) (innermost outer)
      (elementTrails outer place start elements) := by
  match elements with
  | [] => exact WalksOver.skip _
  | element :: elements =>
    unfold visitElements elementTrails
    exact WalksOver.andThen (visit_walksOver outer (place.index start) element)
      (visitElements_walksOver outer place (start + 1) elements)

end

/-- The walk over a document. -/
theorem visit_document_effect (document : Json) (root : Location) :
    Effect (visit root document) {} (allReports (visits root document))
      ((visits root document).flatMap sightings) [] :=
  visit_walksOver [] root document {} rfl

end ProseSchema.StatesLanguage
