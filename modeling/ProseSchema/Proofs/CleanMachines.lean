import Mathlib.Data.List.Pairwise
import ProseSchema.Proofs.MachineReports
import ProseSchema.Proofs.MachineRules
import ProseSchema.Validator

namespace ProseSchema.StatesLanguage

def stateTrail (site : Site) (outer : Trail) (states : List (String × Json)) (name : String)
    (fields : List (String × Json)) : Trail :=
  ⟨(site.place.key "States").key name, fields⟩ :: ⟨site.place.key "States", states⟩ :: site :: outer

/-- The trail of a machine: the document, a branch of a parallel state of a machine, or the iterator or item
processor of a map state of a machine. -/
inductive IsMachine (document : Json) (root : Location) : Trail → Prop
  | document {members : List (String × Json)} (h : document = .object members) :
    IsMachine document root [⟨root, members⟩]
  | branch {site : Site} {outer : Trail} {states : List (String × Json)} {name : String}
    {fields : List (String × Json)} {elements : List Json} {i : Nat} {members : List (String × Json)}
    (h : IsMachine document root (site :: outer)) (hs : statesOf? site.members = some states)
    (hm : (name, .object fields) ∈ states) (ht : fields.lookup "Type" = some (.string "Parallel"))
    (hb : fields.lookup "Branches" = some (.array elements)) (hi : elements[i]? = some (.object members)) :
    IsMachine document root
      (⟨(((site.place.key "States").key name).key "Branches").index i, members⟩ ::
        stateTrail site outer states name fields)
  | iterator {site : Site} {outer : Trail} {states : List (String × Json)} {name : String}
    {fields : List (String × Json)} {field : String} {members : List (String × Json)}
    (h : IsMachine document root (site :: outer)) (hs : statesOf? site.members = some states)
    (hm : (name, .object fields) ∈ states) (ht : fields.lookup "Type" = some (.string "Map"))
    (hf : field = "Iterator" ∨ field = "ItemProcessor") (hb : fields.lookup field = some (.object members)) :
    IsMachine document root
      (⟨((site.place.key "States").key name).key field, members⟩ ::
        stateTrail site outer states name fields)

/-- What holds of a machine that nothing is reported of. The next state is one of the innermost machine
around, which is the machine itself unless its object of states has an object of states in turn. -/
structure IsSound (document : Json) (root : Location) (site : Site) (outer : Trail)
    (states : List (String × Json)) : Prop where
  states_eq : site.members.lookup "States" = some (.object states)
  start : ∃ start ∈ states.map Prod.fst, site.members.lookup "StartAt" = some (.string start)
  type : ∀ name fields, (name, .object fields) ∈ states →
    ∃ type ∈ stateTypes, fields.lookup "Type" = some (.string type)
  final : ∀ name fields, (name, .object fields) ∈ states → IsFinal (.object fields) →
    fields.lookup "Next" = none
  next : ∀ name fields, (name, .object fields) ∈ states → ¬IsFinal (.object fields) →
    ∃ next ∈ ((statesOf? states).getD states).map Prod.fst, fields.lookup "Next" = some (.string next)
  reached : ∀ name ∈ states.map Prod.fst, site.members.lookup "StartAt" = some (.string name) ∨
    ∃ trail, Visited document root trail ∧ innermost trail = site :: outer ∧ name ∈ targets trail

/-! Where the walk reports nothing. -/

lemma nodup_of_noteAll {sightings firstSites : List (String × Location)}
    (h : (noteAll sightings firstSites).1 = []) :
    (sightings.map Prod.fst).Nodup ∧ ∀ name ∈ sightings.map Prod.fst, firstSites.lookup name = none := by
  induction sightings generalizing firstSites with
  | nil => simp
  | cons sighting sightings ih =>
    obtain ⟨name, place⟩ := sighting
    rw [noteAll] at h
    cases hl : firstSites.lookup name with
    | some first =>
      rw [hl] at h
      exact absurd h (List.cons_ne_nil _ _)
    | none =>
      rw [hl] at h
      obtain ⟨hn, hf⟩ := ih h
      have hrest : ∀ other ∈ sightings.map Prod.fst, other ≠ name ∧ firstSites.lookup other = none := by
        intro other ho
        have hlo := hf other ho
        rw [List.lookup_cons] at hlo
        cases he : other == name with
        | true =>
          rw [he] at hlo
          exact absurd hlo (by simp)
        | false =>
          rw [he] at hlo
          exact ⟨ne_of_beq_false he, hlo⟩
      simp only [List.map_cons, List.nodup_cons, List.forall_mem_cons]
      refine ⟨⟨?_, hn⟩, hl, ?_⟩
      · intro hm
        exact (hrest name hm).1 rfl
      · intro other ho
        exact (hrest other ho).2

section Quiet

variable {document : Json} {root : Location} (h : machineProblems document root = [])

include h

lemma reports_eq_nil {trail : Trail} (hv : Visited document root trail) :
    reports (trailsFrom trail) trail = [] := by
  have hp := (visit_document_effect document root).reports_perm
  rw [machineProblems] at h
  rw [h] at hp
  exact List.flatMap_eq_nil_iff.mp (List.nil_perm.mp hp) trail ((mem_visits_iff _ _ _).mpr hv)

/-- Each state of a machine is its start, or some object of the machine leads to it. -/
lemma start_or_target {site : Site} {outer : Trail} {states : List (String × Json)}
    (hv : Visited document root (site :: outer)) (hs : statesOf? site.members = some states) :
    ∀ name ∈ states.map Prod.fst, startOf? site.members = some name ∨
      ∃ trail, Visited document root trail ∧ innermost trail = site :: outer ∧ name ∈ targets trail := by
  have hr := reports_eq_nil h hv
  simp only [reports, hs, Option.map_some, Option.getD_some, List.append_eq_nil_iff, List.map_eq_nil_iff,
    List.filter_eq_nil_iff, unreachableReports] at hr
  intro name hm
  obtain ⟨state, hstate, rfl⟩ := List.mem_map.mp hm
  have hu := hr.1.2 state hstate
  rw [decide_eq_true_eq, not_and_or, not_ne_iff, Classical.not_not, mem_targetsIn] at hu
  apply hu.imp_right
  rintro ⟨trail, hmem, hi, ht⟩
  exact ⟨trail, hv.of_mem_trailsFrom hmem, hi, ht⟩

/-- Two machines with a state of the same name are one and the same. -/
lemma trail_eq_of_name {trail other : Trail} (hv : Visited document root trail)
    (ho : Visited document root other) (name : String) (hn : name ∈ (sightings trail).map Prod.fst)
    (hm : name ∈ (sightings other).map Prod.fst) : trail = other := by
  have hr := (visit_document_effect document root).repeated_eq
  rw [machineProblems] at h
  rw [h] at hr
  have hd := (nodup_of_noteAll hr.symm).1
  -- No name is sighted twice, so the sightings of different trails have none in common.
  rw [List.map_flatMap, List.nodup_flatMap] at hd
  by_contra hne
  have hs : Std.Symm (Function.onFun List.Disjoint fun a : Trail => (sightings a).map Prod.fst) :=
    ⟨fun _ _ hd _ ha hb => hd hb ha⟩
  exact hd.2.forall ((mem_visits_iff _ _ _).mpr hv) ((mem_visits_iff _ _ _).mpr ho) hne hn hm

end Quiet

/-! Machines and their states are visited. -/

lemma visited_state {document : Json} {root : Location} {site : Site} {outer : Trail}
    {states : List (String × Json)} {name : String} {fields : List (String × Json)}
    (hv : Visited document root (site :: outer)) (hs : statesOf? site.members = some states)
    (hm : (name, .object fields) ∈ states) :
    Visited document root (stateTrail site outer states name fields) := by
  obtain ⟨members, rfl, hr⟩ := hv
  have hst := Json.mem_of_lookup ((statesOf?_eq_some_iff _ _).mp hs)
  have hstates : Inside (site :: outer) (⟨site.place.key "States", states⟩ :: site :: outer) := .member hst
  exact ⟨members, rfl, (hr.tail hstates).tail (.member hm)⟩

lemma IsMachine.visited {document : Json} {root : Location} {trail : Trail}
    (h : IsMachine document root trail) : Visited document root trail := by
  induction h with
  | document h => exact ⟨_, h, .refl⟩
  | branch _ hs hm _ hb hi ih =>
    obtain ⟨members, rfl, hr⟩ := visited_state ih hs hm
    exact ⟨members, rfl, hr.tail (.element (Json.mem_of_lookup hb) hi)⟩
  | iterator _ hs hm _ _ hb ih =>
    obtain ⟨members, rfl, hr⟩ := visited_state ih hs hm
    exact ⟨members, rfl, hr.tail (.member (Json.mem_of_lookup hb))⟩

lemma IsMachine.conforms {t : RuleTables} (ht : DescribesMachines t) {document : Json} {root : Location}
    (hd : Conforms t document ["State Machine"]) {trail : Trail} (h : IsMachine document root trail) :
    ∃ site outer given, trail = site :: outer ∧
      (given = ["State Machine"] ∨ given = ["Item Processor"]) ∧ Conforms t (.object site.members) given := by
  have hstate {site : Site} {states : List (String × Json)} {name : String} {fields : List (String × Json)}
      {given : List String} (hg : given = ["State Machine"] ∨ given = ["Item Processor"])
      (hc : Conforms t (.object site.members) given) (hs : statesOf? site.members = some states)
      (hm : (name, .object fields) ∈ states) : Conforms t (.object fields) ["State"] := by
    obtain ⟨_, _, hl, _, hall⟩ := ht.machine_fields hg hc
    rw [(statesOf?_eq_some_iff _ _).mp hs] at hl
    cases hl
    exact hall _ hm
  induction h with
  | document h => exact ⟨_, _, _, rfl, .inl rfl, h ▸ hd⟩
  | branch _ hs hm htype hb hi ih =>
    obtain ⟨_, _, given, he, hg, hc⟩ := ih
    cases he
    have hbranch := ht.state_branches (hstate hg hc hs hm) htype (Json.mem_of_lookup hb)
    exact ⟨_, _, _, rfl, .inl rfl, hbranch _ (List.mem_of_getElem? hi)⟩
  | iterator _ hs hm htype hf hb ih =>
    obtain ⟨_, _, given, he, hg, hc⟩ := ih
    cases he
    have hit := ht.state_iterator (hstate hg hc hs hm) htype
    rcases hf with rfl | rfl
    · exact ⟨_, _, _, rfl, .inl rfl, hit.1 _ (Json.mem_of_lookup hb)⟩
    · exact ⟨_, _, _, rfl, .inr rfl, hit.2 _ (Json.mem_of_lookup hb)⟩

/-- The innermost machine of a state that is no machine itself. -/
lemma statesAt?_stateTrail {site : Site} (outer : Trail) {states : List (String × Json)} (name : String)
    {fields : List (String × Json)} (hs : statesOf? site.members = some states)
    (hf : fields.lookup "States" = none) :
    statesAt? (innermost (stateTrail site outer states name fields)) =
      some ((statesOf? states).getD states) := by
  have hn : statesOf? fields = none := by simp [statesOf?, hf]
  rw [stateTrail, innermost_other hn]
  cases hi : statesOf? states with
  | none =>
    rw [innermost_other hi, innermost_machine hs]
    exact hs
  | some inner =>
    rw [innermost_machine hi]
    exact hi

lemma isSound_of_conforms {t : RuleTables} (ht : DescribesMachines t) {document : Json} {root : Location}
    (h : machineProblems document root = []) {site : Site} {outer : Trail} {given : List String}
    (hv : Visited document root (site :: outer))
    (hg : given = ["State Machine"] ∨ given = ["Item Processor"])
    (hc : Conforms t (.object site.members) given) : ∃ states, IsSound document root site outer states := by
  obtain ⟨states, start, hs, hstart, hstates⟩ := ht.machine_fields hg hc
  have hst : statesOf? site.members = some states := (statesOf?_eq_some_iff _ _).mpr hs
  have hr := reports_eq_nil h hv
  simp only [reports, hst, Option.map_some, Option.getD_some, List.append_eq_nil_iff, entryReports,
    List.map_eq_nil_iff, List.filter_eq_nil_iff] at hr
  obtain ⟨⟨⟨hmissing, _⟩, _⟩, _⟩ := hr
  refine ⟨states, hs, ?_, ?_, ?_, ?_, ?_⟩
  · have hsome : (states.lookup start).isSome = true := by
      have := hmissing start (by simp [(startOf?_eq_some_iff _ _).mpr hstart])
      simpa using this
    exact ⟨start, Json.isSome_lookup_iff.mp hsome, hstart⟩
  · intro name fields hm
    exact ht.state_type (hstates _ hm)
  · intro name fields hm
    exact (ht.state_next (hstates _ hm)).1
  · intro name fields hm hf
    obtain ⟨next, hn⟩ := (ht.state_next (hstates _ hm)).2 hf
    refine ⟨next, ?_, hn⟩
    -- The rules give the next one; that it is a state is what the walk checks at the state itself.
    have hrs := reports_eq_nil h (visited_state hv hst hm)
    have hat := statesAt?_stateTrail outer name hst (ht.state_no_states (hstates _ hm))
    rw [stateTrail, reports, ← stateTrail, hat] at hrs
    simp only [Option.map_some, Option.getD_some, List.append_eq_nil_iff, transitionReports,
      List.map_eq_nil_iff, List.filter_eq_nil_iff] at hrs
    have hsome := hrs.2.1 next (by simp [(target?_eq_some_iff _ _ _).mpr hn])
    exact Json.isSome_lookup_iff.mp (by simpa using hsome)
  · intro name hm
    have hn := start_or_target h hv hst name hm
    rwa [startOf?_eq_some_iff] at hn

/-- The reports on a document by the rules for state machines, under the default settings. -/
def machineReports (document : Json) : Except RuleError (List Report) :=
  rules.map fun rules => Validator.validate {} rules document

lemma machineReports_eq_nil_iff (document : Json) :
    machineReports document = .ok [] ↔ ∃ found, rules = .ok found ∧ found.problems document = [] ∧
      machineProblems document (.ofRoot found.root) = [] := by
  unfold machineReports
  cases rules with
  | error e => simp [Except.map]
  | ok found =>
    simp [Except.map, Validator.validate, Validator.problems]

/-- In a document that nothing is reported of, every machine is sound, and no two machines have a state of
the same name. -/
theorem machines_sound_of_no_report (members : List (String × Json))
    (h : machineReports (.object members) = .ok []) :
    (∀ site outer, IsMachine (.object members) (.ofRoot "State Machine") (site :: outer) →
      ∃ states, IsSound (.object members) (.ofRoot "State Machine") site outer states) ∧
    ∀ site outer states otherSite otherOuter otherStates name,
      IsMachine (.object members) (.ofRoot "State Machine") (site :: outer) →
      IsMachine (.object members) (.ofRoot "State Machine") (otherSite :: otherOuter) →
      statesOf? site.members = some states → statesOf? otherSite.members = some otherStates →
      name ∈ states.map Prod.fst → name ∈ otherStates.map Prod.fst →
      site :: outer = otherSite :: otherOuter := by
  obtain ⟨found, hf, hp, hm⟩ := (machineReports_eq_nil_iff _).mp h
  obtain ⟨described, hd, hroot, ht, _⟩ := rules_describeMachines
  obtain rfl : found = described := Except.ok.inj (hf.symm.trans hd)
  rw [hroot] at hm
  have hc : Conforms found.tables (.object members) ["State Machine"] := by
    rw [RuleSet.problems, sweep_eq_nil_iff] at hp
    have hi := hp _ (List.mem_singleton.mpr rfl)
    rwa [RuleSet.rootItem, hroot] at hi
  constructor
  · intro site outer hmachine
    obtain ⟨_, _, given, he, hg, hcm⟩ := hmachine.conforms ht hc
    cases he
    exact isSound_of_conforms ht hm hmachine.visited hg hcm
  · intro site outer states otherSite otherOuter otherStates name hs ho hst hso hn hno
    refine trail_eq_of_name hm hs.visited ho.visited name ?_ ?_
    · simpa [sightings, hst] using hn
    · simpa [sightings, hso] using hno

lemma machineReports_sample {document : Json} (hs : document ∈ [nestedMachines, stateNamedStates])
    (hm : machineProblems document (.ofRoot "State Machine") = []) : machineReports document = .ok [] := by
  obtain ⟨found, hf, hroot, _, hp⟩ := rules_describeMachines
  rw [← hroot] at hm
  exact (machineReports_eq_nil_iff document).mpr ⟨found, hf, hp _ hs, hm⟩

theorem nestedMachines_sound : machineReports nestedMachines = .ok [] ∧
    ∃ states, IsSound nestedMachines (.ofRoot "State Machine")
      ⟨.ofRoot "State Machine", nestedMachines.members⟩ [] states := by
  have h : machineReports nestedMachines = .ok [] :=
    machineReports_sample (by simp) (List.isEmpty_iff.mp (by decide))
  exact ⟨h, (machines_sound_of_no_report _ h).1 _ _ (.document rfl)⟩

/-- The next state need not be among the states of the machine: in a state that is named `States`, a
transition is followed to a field of that state, which counts as a machine around it. -/
theorem next_outside_states : ¬∀ members, machineReports (.object members) = .ok [] →
    ∀ site outer states name fields,
      IsMachine (.object members) (.ofRoot "State Machine") (site :: outer) →
      statesOf? site.members = some states → (name, .object fields) ∈ states →
      ¬IsFinal (.object fields) →
      ∃ next ∈ states.map Prod.fst, fields.lookup "Next" = some (.string next) := by
  intro h
  have hc : machineReports stateNamedStates = .ok [] :=
    machineReports_sample (by simp) (List.isEmpty_iff.mp (by decide))
  have hf : ¬IsFinal (.object [("Type", .string "Pass"), ("End", .bool false), ("Next", .string "Type"),
      ("Result", .object [("Type", .string "Succeed"), ("Next", .string "Result"),
        ("a", .object [("Next", .string "Next")]), ("b", .object [("Next", .string "End")])])]) := by
    decide
  obtain ⟨next, hm, hn⟩ := h _ hc _ [] _ "States" _ (.document rfl) rfl List.mem_cons_self hf
  obtain rfl : "States" = next := by simpa [eq_comm] using hm
  exact absurd hn (by decide)

end ProseSchema.StatesLanguage
