import ProseSchema.Proofs.Places
import ProseSchema.Proofs.ReorderedStates

namespace ProseSchema

open Json

namespace StatesLanguage

/-- Objects at one place that are equal up to the order of members. -/
structure Site.Reordered (s u : Site) : Prop where
  place : s.place = u.place
  node : Alike (.object s.members) (.object u.members)

/-- Trails over the same places, through objects that are equal up to the order of members. -/
abbrev SameTrail : Trail → Trail → Prop :=
  List.Forall₂ Site.Reordered

lemma rel_elementTrails {as bs : List Json} {t u : Trail} (ht : SameTrail t u)
    (h : List.Forall₂ (fun a b => ∀ t u place, SameTrail t u →
      Multiset.Rel SameTrail (trails t place a : Multiset Trail) (trails u place b : Multiset Trail)) as bs)
    (place : Location) (start : Nat) :
    Multiset.Rel SameTrail (elementTrails t place start as : Multiset Trail)
      (elementTrails u place start bs : Multiset Trail) := by
  induction h generalizing start with
  | nil => exact .zero
  | cons hab _ ih =>
    rw [elementTrails, elementTrails]
    exact rel_append (hab t u _ ht) (ih _)

/-- The walk over values that are alike visits the same places. -/
lemma rel_trails {a b : Json} (h : Alike a b) {t u : Trail} (ht : SameTrail t u) (place : Location) :
    Multiset.Rel SameTrail (trails t place a : Multiset Trail) (trails u place b : Multiset Trail) := by
  suffices hb : ∀ t u place, SameTrail t u →
      Multiset.Rel SameTrail (trails t place a : Multiset Trail) (trails u place b : Multiset Trail) ∧
      ∀ name, Multiset.Rel SameTrail (fieldTrails t place name a : Multiset Trail)
        (fieldTrails u place name b : Multiset Trail) from (hb t u place ht).1
  refine h.induction (motive := fun a b => ∀ t u place, SameTrail t u →
      Multiset.Rel SameTrail (trails t place a : Multiset Trail) (trails u place b : Multiset Trail) ∧
      ∀ name, Multiset.Rel SameTrail (fieldTrails t place name a : Multiset Trail)
        (fieldTrails u place name b : Multiset Trail)) ?_ ?_ ?_
  · intro a ha ho t u place _
    cases a with
    | array as => exact absurd rfl (ha as)
    | object ms => exact absurd rfl (ho ms)
    | _ => exact ⟨.zero, fun _ => .zero⟩
  · intro as bs ih t u place ht
    refine ⟨.zero, ?_⟩
    intro name
    exact rel_elementTrails ht (ih.imp fun _ _ hab t u place ht => (hab t u place ht).1) _ 0
  · intro ms ns h ih t u place ht
    have hs (place : Location) : Multiset.Rel SameTrail (trails t place (.object ms) : Multiset Trail)
        (trails u place (.object ns) : Multiset Trail) := by
      have hsite : SameTrail (⟨place, ms⟩ :: t) (⟨place, ns⟩ :: u) := .cons ⟨rfl, h⟩ ht
      rw [trails, trails, memberTrails_eq_flatMap, memberTrails_eq_flatMap, ← Multiset.cons_coe,
        ← Multiset.cons_coe]
      apply Multiset.Rel.cons hsite
      apply rel_flatMap ih
      rintro _ _ ⟨name, _, hv⟩
      exact (hv _ _ place hsite).2 name
    exact ⟨hs place, fun name => hs (place.key name)⟩

lemma rel_visits {a b : Json} (h : Alike a b) (root : Location) :
    Multiset.Rel SameTrail (visits root a : Multiset Trail) (visits root b : Multiset Trail) :=
  rel_trails h .nil root

/-! What is read off the trails. -/

section

variable {s u : Site} (h : Site.Reordered s u)

include h

lemma states_alike :
    statesOf? s.members = none ∧ statesOf? u.members = none ∨
      ∃ ms ns, statesOf? s.members = some ms ∧ statesOf? u.members = some ns ∧
        Alike (.object ms) (.object ns) := by
  rcases h.node.get? "States" with ⟨hs, hu⟩ | ⟨v, w, hs, hu, hv⟩
  · rw [get?] at hs hu
    exact .inl ⟨by rw [statesOf?, hs, Option.bind_none], by rw [statesOf?, hu, Option.bind_none]⟩
  · rw [get?] at hs hu
    rw [statesOf?, statesOf?, hs, hu, Option.bind_some, Option.bind_some]
    cases hv.reordered with
    | object => exact .inr ⟨_, _, rfl, rfl, hv⟩
    | _ => exact .inl ⟨rfl, rfl⟩

lemma startOf?_alike : startOf? s.members = startOf? u.members :=
  h.node.text_eq "StartAt"

lemma target?_alike (field : String) : target? s.members field = target? u.members field :=
  h.node.text_eq field

lemma handlerFieldProblems_alike (field : String) :
    handlerFieldProblems s.place s.members field = handlerFieldProblems u.place u.members field := by
  rcases h.node.get? field with ⟨hs, hu⟩ | ⟨v, w, hs, hu, hv⟩
  · rw [get?] at hs hu
    rw [handlerFieldProblems, handlerFieldProblems, hs, hu]
    rfl
  · rw [get?] at hs hu
    rw [handlerFieldProblems, handlerFieldProblems, hs, hu, h.place, Option.map_some, Option.map_some,
      handlerProblems_alike hv]

end

section

variable {t u : Trail} (h : SameTrail t u)

include h

lemma innermost_alike : SameTrail (innermost t) (innermost u) := by
  induction h with
  | nil => exact .nil
  | cons hs ht ih =>
    rcases states_alike hs with ⟨hm, hn⟩ | ⟨ms, ns, hm, hn, _⟩
    · rwa [innermost_other hm, innermost_other hn]
    · rw [innermost_machine hm, innermost_machine hn]
      exact .cons hs ht

lemma statesAt?_alike :
    statesAt? t = none ∧ statesAt? u = none ∨
      ∃ ms ns, statesAt? t = some ms ∧ statesAt? u = some ns ∧ Alike (.object ms) (.object ns) := by
  cases h with
  | nil => exact .inl ⟨rfl, rfl⟩
  | cons hs _ => exact states_alike hs

lemma targets_alike : targets t = targets u := by
  cases h with
  | nil => rfl
  | cons hs _ => rw [targets, targets, target?_alike hs, target?_alike hs]

lemma places_alike : t.map Site.place = u.map Site.place := by
  induction h with
  | nil => rfl
  | cons hs _ ih => rw [List.map_cons, List.map_cons, hs.place, ih]

end

/-- Where keys are distinct, places tell trails apart. -/
lemma trail_eq_of_places {document : Json} {root : String} {t u : Trail}
    (ht : ∀ site ∈ t, FoundAt document root site.place (.object site.members))
    (hu : ∀ site ∈ u, FoundAt document root site.place (.object site.members))
    (h : t.map Site.place = u.map Site.place) : t = u := by
  induction t generalizing u with
  | nil => exact (List.map_eq_nil_iff.mp h.symm).symm
  | cons s t ih =>
    cases u with
    | nil => simp at h
    | cons s' u =>
      rw [List.forall_mem_cons] at ht hu
      rw [List.map_cons, List.map_cons, List.cons.injEq] at h
      have hm : Json.object s.members = .object s'.members := by
        have ha := ht.1.at_eq
        rw [h.1, hu.1.at_eq] at ha
        exact (Option.some.inj ha).symm
      obtain ⟨place, members⟩ := s
      obtain ⟨place', members'⟩ := s'
      cases h.1
      cases hm
      rw [ih ht.2 hu.2 h.2]

lemma mem_targetsIn_iff_places {document : Json} {root : String} (hd : document.KeysDistinct) {machine : Trail}
    (hm : ∀ site ∈ machine, FoundAt document root site.place (.object site.members)) (name : String) :
    name ∈ targetsIn machine (visits (.ofRoot root) document) ↔
      ∃ trail ∈ visits (.ofRoot root) document,
        (innermost trail).map Site.place = machine.map Site.place ∧ name ∈ targets trail := by
  rw [mem_targetsIn]
  apply exists_congr
  intro trail
  apply and_congr_right
  intro ht
  apply and_congr_left
  intro _
  constructor
  · rintro rfl
    rfl
  · have hf := ((mem_visits_iff _ _ _).mp ht).foundAt hd
    exact trail_eq_of_places (fun site hs => hf site ((innermost_suffix trail).subset hs)) hm

/-- The same names are led to in machines that are equal up to the order of members. -/
lemma mem_targetsIn_alike {a b : Json} (h : Alike a b) (root : String) {t u : Trail} (ht : SameTrail t u)
    (hta : t ∈ visits (.ofRoot root) a) (hub : u ∈ visits (.ofRoot root) b) (name : String) :
    name ∈ targetsIn t (visits (.ofRoot root) a) ↔ name ∈ targetsIn u (visits (.ofRoot root) b) := by
  rw [mem_targetsIn_iff_places h.left (((mem_visits_iff _ _ _).mp hta).foundAt h.left),
    mem_targetsIn_iff_places h.right (((mem_visits_iff _ _ _).mp hub).foundAt h.right)]
  apply exists_mem_iff_of_rel (rel_visits h _)
  intro trail other hto
  rw [places_alike (innermost_alike hto), places_alike ht, targets_alike hto]

/-! What the walk reports. -/

lemma lookup_isNone_alike {ms ns : List (String × Json)} (h : Alike (.object ms) (.object ns)) (name : String) :
    (ms.lookup name).isNone = (ns.lookup name).isNone := by
  rcases h.get? name with ⟨hm, hn⟩ | ⟨_, _, hm, hn, _⟩
  · rw [get?] at hm hn
    rw [hm, hn]
  · rw [get?] at hm hn
    rw [hm, hn]
    rfl

lemma mayEnd_alike {a b : Json} (h : Alike a b) : MayEnd a ↔ MayEnd b := by
  rw [← isTerminal_iff, ← isTerminal_iff, isTerminal, isTerminal, hasStateType_alike h, hasStateType_alike h,
    h.hasField_eq]

/-- Objects that are alike, in machines that the same names are led to in, have the same reports. -/
lemma outlines_reports {t u : Trail} (h : SameTrail t u) {found others : List Trail}
    (hl : ∀ name, name ∈ targetsIn t found ↔ name ∈ targetsIn u others) :
    outlines (reports found t) = outlines (reports others u) := by
  cases h with
  | nil => rfl
  | @cons s s' t u hs ht =>
    rw [reports, reports, outlines_append, outlines_append]
    congr 1
    · rcases states_alike hs with ⟨hm, hn⟩ | ⟨ms, ns, hm, hn, hms⟩
      · rw [hm, hn]
        rfl
      · rw [hm, hn, Option.map_some, Option.map_some, Option.getD_some, Option.getD_some, outlines_append,
          outlines_append]
        congr 1
        · have he : (∃ state ∈ ms, MayEnd state.2) ↔ ∃ state ∈ ns, MayEnd state.2 := by
            apply exists_mem_iff_of_rel hms.members
            rintro _ _ ⟨_, hv⟩
            exact mayEnd_alike hv
          simp only [entryReports, startOf?_alike hs, hs.place, lookup_isNone_alike hms, he]
        · apply outlines_map (rel_filter hms.members _)
          · rintro _ _ ⟨name, _⟩
            rw [hs.place]
          · rintro _ _ ⟨name, _⟩
            simp only [hl name, startOf?_alike hs]
    · rcases statesAt?_alike (innermost_alike (.cons hs ht)) with ⟨hm, hn⟩ | ⟨ms, ns, hm, hn, hms⟩
      · rw [hm, hn]
        rfl
      · simp only [hm, hn, Option.map_some, transitionReports, target?_alike hs, hs.place,
          lookup_isNone_alike hms]

lemma outlines_localReports {t u : Trail} (h : SameTrail t u) :
    outlines (localReports t) = outlines (localReports u) := by
  cases h with
  | nil => rfl
  | @cons s s' t u hs ht =>
    simp only [localReports, handlerFieldProblems_alike hs, outlines_append]
    congr 1
    rcases states_alike hs with ⟨hm, hn⟩ | ⟨ms, ns, hm, hn, hms⟩
    · rw [hm, hn, hs.place]
    · rw [hm, hn, Option.getD_some, Option.getD_some, hs.place]
      apply outlines_flatMap hms.members
      rintro _ _ ⟨name, hv⟩
      rw [hv.hasType_eq]
      split
      · exact outlines_stateProblems hv _
      · rfl

/-! Repeated names. -/

/-- The names of a list that were seen before, be it in the list or among others. -/
def repeats (seen : List String) : List String → List String
  | [] => []
  | name :: names => if name ∈ seen then name :: repeats seen names else repeats (name :: seen) names

lemma count_repeats (seen names : List String) (name : String) :
    (repeats seen names).count name = names.count name - if name ∈ seen then 0 else 1 := by
  induction names generalizing seen with
  | nil => simp [repeats]
  | cons other names ih =>
    unfold repeats
    by_cases ho : other ∈ seen
    · rw [if_pos ho, List.count_cons, List.count_cons, ih]
      by_cases he : other = name
      · subst he
        simp [ho]
      · simp [he]
    · rw [if_neg ho, ih, List.count_cons]
      by_cases he : other = name
      · subst he
        simp [ho]
      · have hne : name ≠ other := Ne.symm he
        simp [he, hne]

lemma repeats_perm {names others : List String} (h : names.Perm others) (seen : List String) :
    (repeats seen names).Perm (repeats seen others) := by
  rw [List.perm_iff_count]
  intro name
  rw [count_repeats, count_repeats, h.count_eq]

lemma outline_noteAll (sightings firstSites : List (String × Location)) :
    (noteAll sightings firstSites).1.map Problem.outline =
      (repeats (firstSites.map Prod.fst) (sightings.map Prod.fst)).map fun name =>
        (.duplicateStateName, [name]) := by
  induction sightings generalizing firstSites with
  | nil => rfl
  | cons sighting sightings ih =>
    obtain ⟨name, place⟩ := sighting
    rw [noteAll, List.map_cons, repeats]
    cases hl : firstSites.lookup name with
    | some first =>
      have hm : name ∈ firstSites.map Prod.fst := Json.isSome_lookup_iff.mp (by rw [hl, Option.isSome_some])
      rw [if_pos hm, List.map_cons, List.map_cons, ih]
      rfl
    | none =>
      have hm : name ∉ firstSites.map Prod.fst := by
        rw [← Json.isSome_lookup_iff, hl]
        exact Bool.false_ne_true
      rw [if_neg hm]
      exact ih _

lemma outlines_noteAll {sightings others : List (String × Location)}
    (h : (sightings.map Prod.fst).Perm (others.map Prod.fst)) :
    outlines (noteAll sightings []).1 = outlines (noteAll others []).1 := by
  rw [outlines, outlines, outline_noteAll, outline_noteAll, Multiset.coe_eq_coe]
  exact (repeats_perm h _).map _

lemma names_sightings {t u : Trail} (h : SameTrail t u) :
    ((sightings t).map Prod.fst).Perm ((sightings u).map Prod.fst) := by
  cases h with
  | nil => exact .refl _
  | @cons s s' t u hs ht =>
    rw [sightings, sightings, List.map_map, List.map_map]
    rcases states_alike hs with ⟨hm, hn⟩ | ⟨ms, ns, hm, hn, hms⟩
    · rw [hm, hn]
      exact .refl _
    · rw [hm, hn]
      exact names_perm hms.members

lemma outlines_machineProblems {a b : Json} (h : Alike a b) (root : String) :
    outlines (machineProblems a (.ofRoot root)) = outlines (machineProblems b (.ofRoot root)) := by
  have hv := (rel_visits h (.ofRoot root)).mono
    (p := fun t u => (t ∈ visits (.ofRoot root) a ∧ u ∈ visits (.ofRoot root) b) ∧ SameTrail t u)
    fun t ht u hu htu => ⟨⟨ht, hu⟩, htu⟩
  have hr : outlines ((visits (.ofRoot root) a).flatMap (reports (visits (.ofRoot root) a))) =
      outlines ((visits (.ofRoot root) b).flatMap (reports (visits (.ofRoot root) b))) := by
    apply outlines_flatMap hv
    rintro t u ⟨⟨ht, hu⟩, htu⟩
    exact outlines_reports htu (mem_targetsIn_alike h root htu ht hu)
  have hn : (((visits (.ofRoot root) a).flatMap sightings).map Prod.fst).Perm
      (((visits (.ofRoot root) b).flatMap sightings).map Prod.fst) := by
    rw [List.map_flatMap, List.map_flatMap, ← Multiset.coe_eq_coe, ← Multiset.rel_eq]
    apply rel_flatMap (rel_visits h _)
    intro t u htu
    rw [Multiset.rel_eq, Multiset.coe_eq_coe]
    exact names_sightings htu
  have hl : outlines ((visits (.ofRoot root) a).flatMap localReports) =
      outlines ((visits (.ofRoot root) b).flatMap localReports) :=
    outlines_flatMap (rel_visits h _) fun t u => outlines_localReports
  rw [outlines_perm (machineProblems_perm a (.ofRoot root)), outlines_perm (machineProblems_perm b (.ofRoot root)),
    outlines_append, outlines_append, outlines_append, outlines_append, hr, outlines_noteAll hn, hl]

end StatesLanguage

namespace Validator

lemma outlines_problems (validator : Validator) (rules : RuleSet) {a b : Json} (h : Alike a b) :
    outlines (validator.problems rules a) = outlines (validator.problems rules b) := by
  rw [problems, problems, outlines_append, outlines_append]
  congr 1
  · apply outlines_sweep
    exact .cons ⟨rfl, rfl, h⟩ .zero
  · split
    · exact StatesLanguage.outlines_machineProblems h rules.root
    · rfl

lemma outline_validate (validator : Validator) (rules : RuleSet) (document : Json) :
    (validator.validate rules document).map Report.outline =
      (validator.problems rules document).map Problem.outline := by
  rw [validate, List.map_map]
  rfl

/-- The order in which objects have their members does not matter: the reports on two documents that differ in
nothing else are, up to their order, of the same kinds with the same arguments, apart from the text of a
value and the places of a repeated name. In particular, one document is valid if the other one is. -/
theorem validate_reordered (validator : Validator) (rules : RuleSet) {a b : Json} (hd : a.KeysDistinct)
    (h : Reordered a b) :
    ((validator.validate rules a).map Report.outline).Perm ((validator.validate rules b).map Report.outline) ∧
      (validator.validate rules a = [] ↔ validator.validate rules b = []) := by
  have hp : ((validator.validate rules a).map Report.outline).Perm
      ((validator.validate rules b).map Report.outline) := by
    rw [outline_validate, outline_validate, ← Multiset.coe_eq_coe]
    exact validator.outlines_problems rules ⟨h, hd, h.keysDistinct hd⟩
  refine ⟨hp, ?_⟩
  rw [← List.length_eq_zero_iff, ← List.length_eq_zero_iff]
  have hl := hp.length_eq
  rw [List.length_map, List.length_map] at hl
  rw [hl]

def twoStates : Json :=
  .object [("StartAt", .string "A"),
    ("States", .object [("A", .object [("Next", .string "C")]), ("B", .object [("Type", .string "Pass")])])]

/-- The same machine with its fields and its states the other way round. -/
def twoStatesReordered : Json :=
  .object [("States", .object [("B", .object [("Type", .string "Pass")]), ("A", .object [("Next", .string "C")])]),
    ("StartAt", .string "A")]

theorem twoStates_reordered :
    twoStates.KeysDistinct ∧ Reordered twoStates twoStatesReordered ∧
    ((Validator.validate {} ⟨"Machine", {}⟩ twoStates).map Report.outline).Perm
      ((Validator.validate {} ⟨"Machine", {}⟩ twoStatesReordered).map Report.outline) ∧
    (Validator.validate {} ⟨"Machine", {}⟩ twoStates = [] ↔
      Validator.validate {} ⟨"Machine", {}⟩ twoStatesReordered = []) := by
  have hd : twoStates.KeysDistinct := by
    simp [twoStates, keysDistinct_object_iff, keysDistinct_string]
  have hs : Reordered (.object [("A", .object [("Next", .string "C")]), ("B", .object [("Type", .string "Pass")])])
      (.object [("B", .object [("Type", .string "Pass")]), ("A", .object [("Next", .string "C")])]) :=
    .of_perm (.swap _ _ _)
  have hr : Reordered twoStates twoStatesReordered := by
    apply Reordered.object
    rw [Multiset.coe_eq_coe.mpr (.swap _ _ _)]
    exact .cons (.intro "States" hs) (.cons (.intro "StartAt" (.refl _)) .zero)
  exact ⟨hd, hr, validate_reordered {} ⟨"Machine", {}⟩ hd hr⟩

end Validator

end ProseSchema
