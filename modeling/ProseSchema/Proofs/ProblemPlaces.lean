import ProseSchema.Proofs.CatchAllHandlers
import ProseSchema.Proofs.Places
import ProseSchema.Proofs.WalkOutcome
import ProseSchema.Validator

/-!
# The places of problems

A problem is reported at the value that it is about. Each requirement, and each check of the walk, has the
locations of its problems from the node that it looks at, and so every location among the arguments of a problem
leads to a value of the document that has the problem.
-/

namespace ProseSchema

/-- The positions of the locations among the arguments of a kind. The location of a problem in a payload
template is not counted, since it leaves out the field of the template. -/
def ProblemKind.placePositions : ProblemKind → List Nat
  | fieldNotAllowed | missingStartTarget | noSuchState | nullField | invalidPathField => [1]
  | duplicateStateName => [1, 2]
  | invalidPayloadPath => []
  | _ => [0]

namespace Problem

/-- The locations at these positions. -/
def places : Problem → List Location
  | duplicateState _ place first => [place, first]
  | invalidPayloadPath .. => []
  | missingField place _ | missingFields place _ | forbiddenField place _ | nullValue place
  | wrongType place _ _ | notListed place _ _ _ | outOfRange place _ _ _ _ | severalFields place _
  | emptyArray place _ | unknownField _ place | missingStart _ place | noSuchState _ place _
  | unreachableState place _ | noTerminalState place | nullPath _ place | invalidPath _ place
  | invalidVariable place | catchAllNotLast place _ => [place]

lemma args_placePositions (p : Problem) :
    p.kind.placePositions.map (p.args[·]?) = p.places.map fun place => some place.text := by
  cases p with
  | outOfRange place field value relation bound => cases relation <;> rfl
  | _ => rfl

/-- What the problem says of the value at its location. -/
def Concerns (value : Json) : Problem → Prop
  | missingField _ field => (∃ members, value = .object members) ∧ ¬value.Has field
  | missingFields _ fields => (∃ members, value = .object members) ∧ ∀ field ∈ fields, ¬value.Has field
  | forbiddenField _ field | unknownField field _ | duplicateState field _ _ => value.Has field
  | nullValue _ => value = .null
  | wrongType _ actual _ => value.types = actual
  | notListed _ field found _ | outOfRange _ field found _ _ => value.get? field = some found
  | severalFields _ fields => 1 < fields.countP (value.hasField ·)
  | emptyArray _ field => value.get? field = some (.array [])
  | missingStart target _ => value.get? "StartAt" = some (.string target)
  | noSuchState target _ field => value.get? field = some (.string target)
  | unreachableState _ name => ∃ states, value.get? "States" = some states ∧ states.Has name
  | noTerminalState _ => ∃ states, value.get? "States" = some (.object states)
  | nullPath field _ => value.get? field = some .null
  | invalidPath field _ =>
    ∃ found, value.get? field = some found ∧ StatesLanguage.isPayloadPathValue found = false
  | invalidPayloadPath .. => True
  | invalidVariable _ =>
    ∃ found, value.get? "Variable" = some found ∧ StatesLanguage.isPayloadPathValue found = false
  | catchAllNotLast _ index => ∃ handlers, value = .array handlers ∧ index < handlers.length

/-- Each location of the problem is that of a value of the document that has the problem. -/
def WellPlaced (document : Json) (root : String) (p : Problem) : Prop :=
  ∀ place ∈ p.places, ∃ value, FoundAt document root place value ∧ p.Concerns value

lemma WellPlaced.of_value {document value : Json} {root : String} {place : Location} {p : Problem}
    (hp : p.places = [place]) (h : FoundAt document root place value) (hc : p.Concerns value) :
    p.WellPlaced document root := by
  intro other ho
  rw [hp, List.mem_singleton] at ho
  exact ⟨value, ho ▸ h, hc⟩

lemma WellPlaced.forall_mem_singleton {document value : Json} {root : String} {place : Location} {q : Problem}
    (hq : q.places = [place]) (h : FoundAt document root place value) (hc : q.Concerns value) :
    ∀ p ∈ [q], p.WellPlaced document root :=
  List.forall_mem_singleton.mpr (.of_value hq h hc)

lemma WellPlaced.of_no_place {document : Json} {root : String} {p : Problem} (hp : p.places = []) :
    p.WellPlaced document root := by
  intro place h
  simp [hp] at h

end Problem

section

variable {document : Json} {root : String} {place : Location}

/-! Problems with respect to the rules. -/

namespace Requirement

lemma typeProblems_wellPlaced {value : Json} (h : FoundAt document root place value) (type : JsonType) :
    ∀ p ∈ typeProblems type value place, p.WellPlaced document root := by
  unfold typeProblems
  split
  · simp
  · exact .forall_mem_singleton rfl h rfl

lemma elementProblems_wellPlaced {all : List Json} (h : FoundAt document root place (.array all))
    (type : JsonType) (start : Nat) (elements : List Json) (hd : all.drop start = elements) :
    ∀ p ∈ elementProblems type place start elements, p.WellPlaced document root := by
  induction elements generalizing start with
  | nil => simp [elementProblems]
  | cons element elements ih =>
    have hi : all[start]? = some element := by rw [← List.head?_drop, hd, List.head?_cons]
    have hd' : all.drop (start + 1) = elements := by rw [← List.tail_drop, hd, List.tail_cons]
    exact List.forall_mem_append.mpr ⟨typeProblems_wellPlaced (h.element hi) type, ih _ hd'⟩

lemma fieldTypeProblems_wellPlaced {value : Json} (h : FoundAt document root place value) (type : JsonType)
    (inArray nullable : Bool) :
    ∀ p ∈ fieldTypeProblems type inArray nullable value place, p.WellPlaced document root := by
  unfold fieldTypeProblems
  by_cases hn : value.isNull = true
  · rw [if_pos hn]
    cases nullable with
    | true => simp
    | false => exact .forall_mem_singleton rfl h (value.isNull_iff.mp hn)
  · rw [if_neg hn]
    cases inArray with
    | false => exact typeProblems_wellPlaced h type
    | true =>
      rw [if_pos rfl]
      split
      · next elements => exact elementProblems_wellPlaced h type 0 elements List.drop_zero
      · exact .forall_mem_singleton rfl h rfl

lemma rangeProblems_wellPlaced {node : Json} (h : FoundAt document root place node) (range : Range)
    (field : String) {value : Json} (hf : node.get? field = some value) :
    ∀ p ∈ rangeProblems range field value place, p.WellPlaced document root := by
  unfold rangeProblems
  split
  · intro p hp
    obtain ⟨bound, _, rfl⟩ := List.mem_map.mp hp
    exact .of_value rfl h hf
  · simp

lemma hasFieldProblems_wellPlaced {node : Json} (h : FoundAt document root place node) (names : List String) :
    ∀ p ∈ (hasField names).problems node place, p.WellPlaced document root := by
  simp only [problems]
  split
  · simp
  · next hn =>
    simp only [Bool.or_eq_true, Bool.not_eq_true', not_or, Bool.not_eq_false, List.any_eq_true,
      Json.hasField_iff, not_exists, not_and] at hn
    have ho := (Json.hasType_object_iff node).mp hn.1
    split
    · next name => exact .forall_mem_singleton rfl h ⟨ho, hn.2 name List.mem_cons_self⟩
    · exact .forall_mem_singleton rfl h ⟨ho, hn.2⟩

/-- What a requirement reports of a node is found at the node or inside it. -/
lemma problems_wellPlaced {node : Json} (h : FoundAt document root place node) (requirement : Requirement) :
    ∀ p ∈ requirement.problems node place, p.WellPlaced document root := by
  cases requirement with
  | hasField names => exact hasFieldProblems_wellPlaced h names
  | lacksField name =>
    rw [problems]
    split
    · next hf => exact .forall_mem_singleton rfl h ((node.hasField_iff name).mp hf)
    · simp
  | fieldType field type inArray nullable =>
    rw [problems]
    split
    · next value hf => exact fieldTypeProblems_wellPlaced (h.field hf) type inArray nullable
    · simp
  | fieldAmong field allowed =>
    rw [problems]
    split
    · next value hf =>
      split
      · simp
      · exact .forall_mem_singleton rfl h hf
    · simp
  | fieldRange field range =>
    rw [problems]
    split
    · next value hf => exact rangeProblems_wellPlaced h range field hf
    · simp
  | onlyOneOf names =>
    rw [problems]
    split
    · next hn =>
      rw [Bool.and_eq_true, decide_eq_true_eq] at hn
      exact .forall_mem_singleton rfl h hn.2
    · simp
  | nonEmptyArray field =>
    rw [problems]
    split
    · next hf => exact .forall_mem_singleton rfl h hf
    · simp

end Requirement

lemma Item.problems_wellPlaced {t : RuleTables} {item : Item}
    (h : FoundAt document root item.place item.node) :
    ∀ p ∈ item.problems t, p.WellPlaced document root := by
  rw [Item.problems, List.forall_mem_append]
  constructor
  · intro p hp
    simp only [constraintProblems, List.mem_flatMap] at hp
    obtain ⟨_, _, constraint, _, hp⟩ := hp
    exact constraint.requirement.problems_wellPlaced h p hp
  · intro p hp
    obtain ⟨node, place, roles⟩ := item
    cases node with
    | object members =>
      obtain ⟨member, hm, rfl⟩ := List.mem_map.mp hp
      have hf := Json.lookup_isSome_of_mem (List.mem_of_mem_filter hm)
      exact .of_value rfl h (Option.isSome_iff_exists.mp hf)
    | _ => simp [unknownFields] at hp

/-- A sweep over items that stand where they say reports problems that do so. -/
lemma sweep_wellPlaced (t : RuleTables) (queue : List Item)
    (h : ∀ item ∈ queue, FoundAt document root item.place item.node) :
    ∀ p ∈ sweep t queue, p.WellPlaced document root := by
  induction queue using sweep.induct t with
  | case1 => simp [sweep]
  | case2 item queue ih =>
    rw [List.forall_mem_cons] at h
    rw [sweep, List.forall_mem_append]
    refine ⟨Item.problems_wellPlaced h.1, ih ?_⟩
    rw [List.forall_mem_append]
    exact ⟨h.2, fun inner hi => Item.foundAt_of_mem_next h.1 hi⟩

/-! Problems of the walk. -/

namespace StatesLanguage

lemma pathProblems_wellPlaced {state : Json} (h : FoundAt document root place state) (field : String)
    (nullable : Bool) : ∀ p ∈ pathProblems state place field nullable, p.WellPlaced document root := by
  unfold pathProblems
  split
  · simp
  · next hf =>
    cases nullable with
    | true => simp
    | false => exact .forall_mem_singleton rfl h hf
  · next value _ hf =>
    split
    · simp
    · next hv => exact .forall_mem_singleton rfl h ⟨value, hf, eq_false_of_ne_true hv⟩

mutual

theorem templateProblems_places (template : String) (place : Location) (value : Json) :
    ∀ p ∈ templateProblems template place value, p.places = [] := by
  match value with
  | .object members => exact templateMemberProblems_places template place members
  | .array elements => exact templateElementProblems_places template place 0 elements
  | .null | .bool _ | .number _ | .string _ => simp [templateProblems]

theorem templateMemberProblems_places (template : String) (place : Location)
    (members : List (String × Json)) :
    ∀ p ∈ templateMemberProblems template place members, p.places = [] := by
  match members with
  | [] => simp [templateMemberProblems]
  | (key, value) :: members =>
    rw [templateMemberProblems, List.forall_mem_append]
    refine ⟨?_, templateMemberProblems_places template place members⟩
    split
    · split <;> simp [Problem.places]
    · exact templateProblems_places template (place.key key) value

theorem templateElementProblems_places (template : String) (place : Location) (start : Nat)
    (elements : List Json) :
    ∀ p ∈ templateElementProblems template place start elements, p.places = [] := by
  match elements with
  | [] => simp [templateElementProblems]
  | element :: elements =>
    rw [templateElementProblems, List.forall_mem_append]
    exact ⟨templateProblems_places template _ element,
      templateElementProblems_places template place _ elements⟩

end

lemma variableProblems_wellPlaced {members : List (String × Json)}
    (h : FoundAt document root place (.object members)) :
    ∀ p ∈ variableProblems members place, p.WellPlaced document root := by
  unfold variableProblems
  split
  · next value hf =>
    split
    · simp
    · next hv => exact .forall_mem_singleton rfl h ⟨value, hf, eq_false_of_ne_true hv⟩
  · simp

mutual

theorem choiceProblems_wellPlaced (place : Location) (value : Json) (h : FoundAt document root place value) :
    ∀ p ∈ choiceProblems place value, p.WellPlaced document root := by
  match value with
  | .object members =>
    simp only [choiceProblems, List.forall_mem_append]
    exact ⟨⟨⟨variableProblems_wellPlaced h, operandProblems_wellPlaced "And" place members fun _ hm => h.member hm⟩,
      operandProblems_wellPlaced "Or" place members fun _ hm => h.member hm⟩,
      operandProblems_wellPlaced "Not" place members fun _ hm => h.member hm⟩
  | .array elements =>
    exact choiceElementProblems_wellPlaced place 0 elements fun i _ hi =>
      h.element (by rwa [Nat.zero_add])
  | .null | .bool _ | .number _ | .string _ => simp [choiceProblems]

theorem operandProblems_wellPlaced (operator : String) (place : Location) (members : List (String × Json))
    (h : ∀ value, (operator, value) ∈ members → FoundAt document root (place.key operator) value) :
    ∀ p ∈ operandProblems operator place members, p.WellPlaced document root := by
  match members with
  | [] => simp [operandProblems]
  | (key, value) :: members =>
    unfold operandProblems
    split
    · next hk =>
      subst hk
      exact choiceProblems_wellPlaced (place.key key) value (h value List.mem_cons_self)
    · exact operandProblems_wellPlaced operator place members fun value hm =>
        h value (List.mem_cons_of_mem _ hm)

theorem choiceElementProblems_wellPlaced (place : Location) (start : Nat) (elements : List Json)
    (h : ∀ i value, elements[i]? = some value → FoundAt document root (place.index (start + i)) value) :
    ∀ p ∈ choiceElementProblems place start elements, p.WellPlaced document root := by
  match elements with
  | [] => simp [choiceElementProblems]
  | element :: elements =>
    rw [choiceElementProblems, List.forall_mem_append]
    refine ⟨choiceProblems_wellPlaced _ element (h 0 element rfl),
      choiceElementProblems_wellPlaced place _ elements ?_⟩
    intro i value hi
    rw [Nat.add_right_comm, Nat.add_assoc]
    exact h (i + 1) value hi

end

lemma stateProblems_wellPlaced {state : Json} (h : FoundAt document root place state) :
    ∀ p ∈ stateProblems state place, p.WellPlaced document root := by
  simp only [stateProblems, List.forall_mem_append, List.forall_mem_flatMap]
  refine ⟨⟨?_, ?_⟩, ?_⟩
  · intro field _
    exact pathProblems_wellPlaced h field.1 field.2
  · intro field _
    cases state.get? field with
    | none => simp
    | some value => exact fun p hp => .of_no_place (templateProblems_places field place value p hp)
  · split
    · cases hf : state.get? "Choices" with
      | none => simp
      | some value => exact choiceProblems_wellPlaced _ value (h.field hf)
    · simp

lemma handlerFieldProblems_wellPlaced {members : List (String × Json)}
    (h : FoundAt document root place (.object members)) (field : String) :
    ∀ p ∈ handlerFieldProblems place members field, p.WellPlaced document root := by
  unfold handlerFieldProblems
  cases hf : members.lookup field with
  | none => simp
  | some value =>
    intro p hp
    rw [Option.map_some, Option.getD_some] at hp
    obtain ⟨handlers, rfl, index, rfl, ⟨handler, errors, hi, -⟩, -⟩ := mem_handlerProblems_iff.mp hp
    have hlt : index < handlers.length := (List.getElem?_eq_some_iff.mp hi).1
    exact .of_value rfl (h.member (Json.mem_of_lookup hf)) ⟨handlers, rfl, hlt⟩

lemma transitionReports_wellPlaced {members : List (String × Json)}
    (h : FoundAt document root place (.object members)) (states : List (String × Json)) (field : String) :
    ∀ p ∈ transitionReports states place members field, p.WellPlaced document root := by
  intro p hp
  obtain ⟨target, ht, rfl⟩ := List.mem_map.mp hp
  have hf := Option.mem_toList.mp (List.mem_of_mem_filter ht)
  exact .of_value rfl h ((target?_eq_some_iff members field target).mp hf)

lemma entryReports_wellPlaced {members : List (String × Json)}
    (h : FoundAt document root place (.object members)) {states : List (String × Json)}
    (hs : statesOf? members = some states) :
    ∀ p ∈ entryReports place members states, p.WellPlaced document root := by
  rw [entryReports, List.forall_mem_append]
  constructor
  · intro p hp
    obtain ⟨target, ht, rfl⟩ := List.mem_map.mp hp
    have hf := Option.mem_toList.mp (List.mem_of_mem_filter ht)
    exact .of_value rfl h ((startOf?_eq_some_iff members target).mp hf)
  · split
    · simp
    · exact .forall_mem_singleton rfl h ⟨states, (statesOf?_eq_some_iff members states).mp hs⟩

lemma reports_wellPlaced (found : List Trail) {trail : Trail}
    (h : ∀ site ∈ trail, FoundAt document root site.place (.object site.members)) :
    ∀ p ∈ reports found trail, p.WellPlaced document root := by
  cases trail with
  | nil => simp [reports]
  | cons site outer =>
    have hsite := h site List.mem_cons_self
    rw [reports, List.forall_mem_append]
    constructor
    · cases hs : statesOf? site.members with
      | none => simp
      | some states =>
        rw [Option.map_some, Option.getD_some, List.forall_mem_append]
        refine ⟨entryReports_wellPlaced hsite hs, ?_⟩
        intro p hp
        obtain ⟨state, hstate, rfl⟩ := List.mem_map.mp hp
        have hf := Json.lookup_isSome_of_mem (List.mem_of_mem_filter hstate)
        exact .of_value rfl hsite ⟨_, (statesOf?_eq_some_iff _ _).mp hs, Option.isSome_iff_exists.mp hf⟩
    · cases statesAt? (innermost (site :: outer)) with
      | none => simp
      | some states =>
        exact List.forall_mem_append.mpr
          ⟨transitionReports_wellPlaced hsite states "Next", transitionReports_wellPlaced hsite states "Default"⟩

lemma localReports_wellPlaced {trail : Trail}
    (h : ∀ site ∈ trail, FoundAt document root site.place (.object site.members)) :
    ∀ p ∈ localReports trail, p.WellPlaced document root := by
  cases trail with
  | nil => simp [localReports]
  | cons site outer =>
    have hsite := h site List.mem_cons_self
    simp only [localReports, List.forall_mem_append]
    refine ⟨?_, handlerFieldProblems_wellPlaced hsite "Retry", handlerFieldProblems_wellPlaced hsite "Catch"⟩
    cases hs : statesOf? site.members with
    | none => simp [insideProblems]
    | some states =>
      rw [Option.getD_some, insideProblems, List.forall_mem_flatMap]
      intro state hstate
      split
      · exact stateProblems_wellPlaced ((hsite.field ((statesOf?_eq_some_iff _ _).mp hs)).member hstate)
      · simp

/-- The name is that of a state at the place. -/
def SightedAt (document : Json) (root : String) (sighting : String × Location) : Prop :=
  ∃ states, FoundAt document root sighting.2 states ∧ states.Has sighting.1

lemma sightings_sightedAt {trail : Trail}
    (h : ∀ site ∈ trail, FoundAt document root site.place (.object site.members)) :
    ∀ sighting ∈ sightings trail, SightedAt document root sighting := by
  cases trail with
  | nil => simp [sightings]
  | cons site outer =>
    intro sighting hm
    obtain ⟨state, hstate, rfl⟩ := List.mem_map.mp hm
    cases hs : statesOf? site.members with
    | none => simp [hs] at hstate
    | some states =>
      rw [hs, Option.getD_some] at hstate
      exact ⟨_, (h site List.mem_cons_self).field ((statesOf?_eq_some_iff _ _).mp hs),
        Option.isSome_iff_exists.mp (Json.lookup_isSome_of_mem hstate)⟩

/-- A repeated name is reported with two places where it is that of a state. -/
lemma noteAll_wellPlaced {sightings firstSites : List (String × Location)}
    (hs : ∀ sighting ∈ sightings, SightedAt document root sighting)
    (hf : ∀ sighting ∈ firstSites, SightedAt document root sighting) :
    ∀ p ∈ (noteAll sightings firstSites).1, p.WellPlaced document root := by
  induction sightings generalizing firstSites with
  | nil => simp [noteAll]
  | cons sighting sightings ih =>
    obtain ⟨name, place⟩ := sighting
    rw [List.forall_mem_cons] at hs
    rw [noteAll]
    cases hl : firstSites.lookup name with
    | none => exact ih hs.2 (List.forall_mem_cons.mpr ⟨hs.1, hf⟩)
    | some first =>
      obtain ⟨before, after, he, _⟩ := List.lookup_eq_some_iff.mp hl
      have hfirst : SightedAt document root (name, first) := hf _ (by rw [he]; simp)
      refine List.forall_mem_cons.mpr ⟨?_, ih hs.2 hf⟩
      rintro other ho
      rcases List.mem_pair.mp ho with rfl | rfl
      · exact hs.1
      · exact hfirst

lemma machineProblems_wellPlaced (hd : document.KeysDistinct) :
    ∀ p ∈ machineProblems document (.ofRoot root), p.WellPlaced document root := by
  have hv (trail : Trail) (ht : trail ∈ visits (.ofRoot root) document) :
      ∀ site ∈ trail, FoundAt document root site.place (.object site.members) :=
    ((mem_visits_iff _ _ _).mp ht).foundAt hd
  intro p hp
  rw [(machineProblems_perm document (.ofRoot root)).mem_iff, List.mem_append, List.mem_append] at hp
  rcases hp with (hp | hp) | hp
  · obtain ⟨trail, ht, hp⟩ := List.mem_flatMap.mp hp
    exact reports_wellPlaced _ (hv trail ht) p hp
  · refine noteAll_wellPlaced ?_ (by simp) p hp
    rw [List.forall_mem_flatMap]
    intro trail ht
    exact sightings_sightedAt (hv trail ht)
  · obtain ⟨trail, ht, hp⟩ := List.mem_flatMap.mp hp
    exact localReports_wellPlaced (hv trail ht) p hp

end StatesLanguage

end

namespace Validator

/-- All problems of a document are well placed. -/
lemma problems_wellPlaced (validator : Validator) (rules : RuleSet) {document : Json}
    (hd : document.KeysDistinct) :
    ∀ p ∈ validator.problems rules document, p.WellPlaced document rules.root := by
  rw [problems, List.forall_mem_append]
  constructor
  · apply sweep_wellPlaced
    rw [List.forall_mem_singleton]
    exact .ofRoot hd
  · split
    · exact StatesLanguage.machineProblems_wellPlaced hd
    · simp

/-- Locations are faithful. The location arguments of a problem are the name of the root and the steps to
a value of the document that has the problem. Where keys are plain, the text of the steps to a value leads to
this value only, so that problems with one location, whichever part of the check they are from, are about one
value. -/
theorem problems_at_their_values (validator : Validator) (rules : RuleSet) {document : Json}
    (hd : document.KeysDistinct) :
    (∀ p ∈ validator.problems rules document,
      p.kind.placePositions.map (p.args[·]?) = p.places.map (fun place => some place.text) ∧
      ∀ place ∈ p.places, ∃ value, document.at? place.steps = some value ∧ p.Concerns value ∧
        place.text.toList = rules.root.toList ++ stepsText place.steps) ∧
    (document.KeysPlain →
      (∀ steps others value other, document.at? steps = some value → document.at? others = some other →
        stepsText steps = stepsText others → steps = others) ∧
      ∀ p ∈ validator.problems rules document, ∀ q ∈ validator.problems rules document,
        ∀ place ∈ p.places, ∀ other ∈ q.places, place.text = other.text →
          place = other ∧ ∃ value, document.at? place.steps = some value ∧ p.Concerns value ∧
            q.Concerns value) := by
  have hw := validator.problems_wellPlaced rules hd
  constructor
  · intro p hp
    refine ⟨p.args_placePositions, ?_⟩
    intro place hplace
    obtain ⟨value, hv, hc⟩ := hw p hp place hplace
    exact ⟨value, hv.at_eq, hc, by rw [place.toList_text, hv.root_eq]⟩
  · intro hplain
    constructor
    · intro steps others value other hs ho ht
      exact steps_eq_of_text_eq hplain hs ho ht
    · intro p hp q hq place hplace other hother ht
      obtain ⟨value, hv, hc⟩ := hw p hp place hplace
      obtain ⟨value', hv', hc'⟩ := hw q hq other hother
      have hl := congrArg String.toList ht
      rw [place.toList_text, other.toList_text, hv.root_eq, hv'.root_eq] at hl
      have hsteps := steps_eq_of_text_eq hplain hv.at_eq hv'.at_eq (List.append_cancel_left hl)
      have he : place = other := by
        obtain ⟨root, steps⟩ := place
        obtain ⟨root', steps'⟩ := other
        cases hsteps
        cases hv.root_eq
        cases hv'.root_eq
        rfl
      subst he
      have hvalue : value = value' := Option.some.inj (hv.at_eq.symm.trans hv'.at_eq)
      exact ⟨rfl, value, hv.at_eq, hc, hvalue ▸ hc'⟩

def strayRules : RuleSet :=
  ⟨"Machine", RuleTables.insertAll {} [.grandchild "Machine" "States" "State",
    .constraint "State" (.of (.hasField ["Type"]))]⟩

def strayMachine : Json :=
  .object [("States", .object [("A", .object [("Next", .string "B")])])]

def strayPlace : Location :=
  ((Location.ofRoot "Machine").key "States").key "A"

/-- The rules miss a field of the state that the walk finds to lead nowhere. -/
theorem strayMachine_places :
    Problem.missingField strayPlace "Type" ∈ Validator.problems {} strayRules strayMachine ∧
    Problem.noSuchState "B" strayPlace "Next" ∈ Validator.problems {} strayRules strayMachine ∧
    ∃ value, strayMachine.at? strayPlace.steps = some value ∧
      (Problem.missingField strayPlace "Type").Concerns value ∧
      (Problem.noSuchState "B" strayPlace "Next").Concerns value := by
  have hp : Validator.problems {} strayRules strayMachine =
      [.unknownField "States" (.ofRoot "Machine"), .missingField strayPlace "Type",
        .unknownField "Next" strayPlace, .noTerminalState (.ofRoot "Machine"),
        .noSuchState "B" strayPlace "Next", .unreachableState (.ofRoot "Machine") "A"] := by
    with_unfolding_all rfl
  have hm : Problem.missingField strayPlace "Type" ∈ Validator.problems {} strayRules strayMachine := by
    simp [hp]
  have hn : Problem.noSuchState "B" strayPlace "Next" ∈ Validator.problems {} strayRules strayMachine := by
    simp [hp]
  have hd : strayMachine.KeysDistinct := by
    simp [strayMachine, Json.keysDistinct_object_iff, Json.keysDistinct_string]
  have hk : strayMachine.KeysPlain := by
    simp [strayMachine, Json.keysPlain_object_iff, Json.keysPlain_string, opensStep]
  have hone := ((problems_at_their_values {} strayRules hd).2 hk).2 _ hm _ hn strayPlace List.mem_cons_self
    strayPlace List.mem_cons_self rfl
  exact ⟨hm, hn, hone.2⟩

end Validator

end ProseSchema
