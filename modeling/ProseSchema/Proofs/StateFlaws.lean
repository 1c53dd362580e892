import Mathlib.Data.List.Nodup
import ProseSchema.Proofs.ReachedParts
import ProseSchema.Proofs.WalkOutcome

/-!
# Flaws within a state

The checks within a state look at its paths, go down into its templates up to the keys that ask for a path, and
go down into its choice rules through the operators. What they report are the flaws of the state, each of them
once, and the walk makes them at the states of the machines that it enters.
-/

namespace ProseSchema

namespace StatesLanguage

/-- The key ends in `.$`. -/
def AsksForPath (key : String) : Prop :=
  ['.', '$'] <:+ key.toList

instance : DecidablePred AsksForPath := fun _ =>
  inferInstanceAs (Decidable (_ <:+ _))

/-- The value is a text that is a path of templates and filters. -/
def IsPathText (value : Json) : Prop :=
  ∃ text, value = .string text ∧ isPayloadPath text = true

/-- The value is a text that is such a path or a call. -/
def IsPathOrCall (value : Json) : Prop :=
  ∃ text, value = .string text ∧ (isIntrinsicCall text = true ∨ isPayloadPath text = true)

/-- What a template goes on with: the elements, and the members with other keys than those that ask for a path. -/
def templateParts : Json → List (LocationStep × Json)
  | .object members =>
    (members.filter fun member => ¬AsksForPath member.1).map fun member => (.key member.1, member.2)
  | value => value.parts

/-- What choice rules go on with: the elements, and the members that the operators join. -/
def choiceParts : Json → List (LocationStep × Json)
  | .object members =>
    ["And", "Or", "Not"].filterMap fun operator => (members.lookup operator).map fun inner => (.key operator, inner)
  | value => value.parts

/-- What is wrong within a state, as the problem that is reported for it. -/
inductive StateFlaw (state : Json) (place : Location) : Problem → Prop
  | nullItems : state.get? "ItemsPath" = some .null → StateFlaw state place (.nullPath "ItemsPath" place)
  | path {field : String} {value : Json} : field ∈ ["InputPath", "OutputPath", "ItemsPath"] →
      state.get? field = some value → value ≠ .null → ¬IsPathText value →
      StateFlaw state place (.invalidPath field place)
  | payload {template key : String} {value found : Json} {there : Location} {members : List (String × Json)} :
      template ∈ ["Parameters", "ResultSelector"] → state.get? template = some value →
      ReachedBy templateParts place value there (.object members) →
      (key, found) ∈ members → AsksForPath key → ¬IsPathOrCall found →
      StateFlaw state place (.invalidPayloadPath key template there)
  | choice {value found : Json} {there : Location} {members : List (String × Json)} :
      state.get? "Type" = some (.string "Choice") → state.get? "Choices" = some value →
      ReachedBy choiceParts (place.key "Choices") value there (.object members) →
      members.lookup "Variable" = some found → ¬IsPathText found →
      StateFlaw state place (.invalidVariable there)

lemma isPayloadKey_iff (key : String) : isPayloadKey key = true ↔ AsksForPath key := by
  rw [isPayloadKey, List.isPrefixOf_iff_prefix, AsksForPath, ← List.reverse_prefix]
  rfl

lemma isPayloadPathValue_iff (value : Json) : isPayloadPathValue value = true ↔ IsPathText value := by
  simp only [isPayloadPathValue, Option.any_eq_true, Json.string?_eq_some_iff, IsPathText]

lemma isPayloadValue_iff (value : Json) : isPayloadValue value = true ↔ IsPathOrCall value := by
  simp only [isPayloadValue, isPayloadPathValue, Bool.or_eq_true, Option.any_eq_true, Json.string?_eq_some_iff,
    IsPathOrCall, and_or_left, exists_or]

/-! Templates. -/

/-- The problem of a member, if its key asks for a path. -/
def keyProblem (template : String) (place : Location) (member : String × Json) : List Problem :=
  if isPayloadKey member.1 then
    if isPayloadValue member.2 then [] else [.invalidPayloadPath member.1 template place]
  else []

/-- The problems of the keys of an object. -/
def keyProblems (template : String) (place : Location) : Json → List Problem
  | .object members => members.flatMap (keyProblem template place)
  | _ => []

lemma mem_keyProblem_iff {template : String} {place : Location} {member : String × Json} {p : Problem} :
    p ∈ keyProblem template place member ↔ AsksForPath member.1 ∧ ¬IsPathOrCall member.2 ∧
      p = .invalidPayloadPath member.1 template place := by
  rw [keyProblem, ← isPayloadKey_iff, ← isPayloadValue_iff]
  split
  · next hk =>
    split
    · next hv => simp [hv]
    · next hv => simp [hk, hv]
  · next hk => simp [hk]

lemma mem_keyProblems_iff {template : String} {place : Location} {value : Json} {p : Problem} :
    p ∈ keyProblems template place value ↔ ∃ members key found, value = .object members ∧
      (key, found) ∈ members ∧ AsksForPath key ∧ ¬IsPathOrCall found ∧
      p = .invalidPayloadPath key template place := by
  cases value with
  | object members =>
    rw [keyProblems, List.mem_flatMap]
    constructor
    · rintro ⟨⟨key, found⟩, hm, hp⟩
      exact ⟨members, key, found, rfl, hm, Iff.mp mem_keyProblem_iff hp⟩
    · rintro ⟨_, key, found, he, hm, hp⟩
      obtain rfl := Json.object.inj he
      exact ⟨(key, found), hm, Iff.mpr mem_keyProblem_iff hp⟩
  | _ => simp [keyProblems]

lemma nodup_keyProblems {template : String} {place : Location} {value : Json} (h : value.KeysDistinct) :
    (keyProblems template place value).Nodup := by
  cases value with
  | object members =>
    rw [keyProblems, List.nodup_flatMap]
    refine ⟨?_, (List.pairwise_map.mp ((Json.keysDistinct_object_iff members).mp h).1).imp ?_⟩
    · intro member _
      rw [keyProblem]
      split
      · split <;> simp
      · exact List.nodup_nil
    · intro member other hne p hp ho
      obtain ⟨_, _, rfl⟩ := Iff.mp mem_keyProblem_iff hp
      obtain ⟨_, _, he⟩ := Iff.mp mem_keyProblem_iff ho
      exact hne (Problem.invalidPayloadPath.inj he).1
  | _ => exact List.nodup_nil

lemma templateElementProblems_eq_flatMap (template : String) (place : Location) (start : Nat) (elements : List Json) :
    templateElementProblems template place start elements =
      (elements.zipIdx start).flatMap fun element => templateProblems template (place.index element.2) element.1 := by
  induction elements generalizing start with
  | nil => rfl
  | cons element elements ih => rw [templateElementProblems, ih, List.zipIdx_cons, List.flatMap_cons]

/-- The problems of a template's object: those of its keys, and those of its parts. -/
lemma templateMemberProblems_perm (template : String) (place : Location) (members : List (String × Json)) :
    (templateMemberProblems template place members).Perm (keyProblems template place (.object members) ++
      (templateParts (.object members)).flatMap fun part =>
        templateProblems template (place.step part.1) part.2) := by
  induction members with
  | nil => exact .nil
  | cons member members ih =>
    obtain ⟨key, value⟩ := member
    rw [templateMemberProblems, keyProblems, List.flatMap_cons, templateParts]
    cases hk : isPayloadKey key with
    | true =>
      have ha := (isPayloadKey_iff key).mp hk
      rw [if_pos rfl, keyProblem, if_pos hk, List.filter_cons_of_neg (by simpa using ha), List.append_assoc]
      exact ih.append_left _
    | false =>
      have ha : ¬AsksForPath key := by rw [← isPayloadKey_iff, hk]; decide
      rw [if_neg (by decide), keyProblem, if_neg (by rw [hk]; decide), List.nil_append,
        List.filter_cons_of_pos (by simpa using ha), List.map_cons, List.flatMap_cons]
      exact (ih.append_left _).trans (List.perm_append_comm_assoc _ _ _)

lemma collects_template (template : String) :
    Collects (templateProblems template) (keyProblems template) templateParts where
  perm := by
    intro place value
    cases value with
    | object members =>
      rw [templateProblems]
      exact templateMemberProblems_perm template place members
    | array elements =>
      have hparts : templateParts (.array elements) =
          elements.zipIdx.map fun element => (.index element.2, element.1) := rfl
      rw [templateProblems, templateElementProblems_eq_flatMap, hparts, List.flatMap_map]
      exact .refl _
    | _ => exact .refl _
  inside := by
    intro value part hp
    cases value with
    | object members =>
      obtain ⟨member, hm, rfl⟩ := List.mem_map.mp hp
      exact List.mem_map_of_mem (List.mem_of_mem_filter hm)
    | _ => exact hp
  nodup_parts := by
    intro value hd
    refine hd.nodup_parts.sublist ?_
    cases value with
    | object members => exact (List.filter_sublist.map _).map _
    | _ => exact List.Sublist.refl _
  nodup_own := nodup_keyProblems
  place_unique := by
    intro place place' value value' p hp hp'
    obtain ⟨_, _, _, _, _, _, _, rfl⟩ := Iff.mp mem_keyProblems_iff hp
    obtain ⟨_, _, _, _, _, _, _, he⟩ := Iff.mp mem_keyProblems_iff hp'
    exact (Problem.invalidPayloadPath.inj he).2.2

/-! Choice rules. -/

/-- The problem of the variable of an object. -/
def ownVariableProblems (place : Location) : Json → List Problem
  | .object members => variableProblems members place
  | _ => []

lemma mem_ownVariableProblems_iff {place : Location} {value : Json} {p : Problem} :
    p ∈ ownVariableProblems place value ↔ ∃ members found, value = .object members ∧
      members.lookup "Variable" = some found ∧ ¬IsPathText found ∧ p = .invalidVariable place := by
  cases value with
  | object members =>
    rw [ownVariableProblems, variableProblems]
    cases hl : members.lookup "Variable" with
    | none => simp [hl]
    | some found =>
      dsimp only
      split
      · next hv =>
        rw [isPayloadPathValue_iff] at hv
        simp [hl, hv]
      · next hv =>
        rw [isPayloadPathValue_iff] at hv
        simp [hl, hv]
  | _ => simp [ownVariableProblems]

lemma choiceElementProblems_eq_flatMap (place : Location) (start : Nat) (elements : List Json) :
    choiceElementProblems place start elements =
      (elements.zipIdx start).flatMap fun element => choiceProblems (place.index element.2) element.1 := by
  induction elements generalizing start with
  | nil => rfl
  | cons element elements ih => rw [choiceElementProblems, ih, List.zipIdx_cons, List.flatMap_cons]

lemma choiceProblems_object (place : Location) (members : List (String × Json)) :
    choiceProblems place (.object members) = ownVariableProblems place (.object members) ++
      (choiceParts (.object members)).flatMap fun part => choiceProblems (place.step part.1) part.2 := by
  have hoperator (operator : String) (operators : List String) :
      ((operator :: operators).filterMap fun operator =>
        (members.lookup operator).map fun inner => (LocationStep.key operator, inner)).flatMap
          (fun part => choiceProblems (place.step part.1) part.2) =
      operandProblems operator place members ++
        (operators.filterMap fun operator =>
          (members.lookup operator).map fun inner => (LocationStep.key operator, inner)).flatMap
            fun part => choiceProblems (place.step part.1) part.2 := by
    rw [List.filterMap_cons, operandProblems_eq_lookup]
    cases members.lookup operator <;> rfl
  rw [choiceProblems, choiceParts, hoperator, hoperator, hoperator]
  simp [ownVariableProblems]

lemma collects_choice : Collects choiceProblems ownVariableProblems choiceParts where
  perm := by
    intro place value
    cases value with
    | object members => rw [choiceProblems_object]
    | array elements =>
      have hparts : choiceParts (.array elements) =
          elements.zipIdx.map fun element => (.index element.2, element.1) := rfl
      rw [choiceProblems, choiceElementProblems_eq_flatMap, hparts, List.flatMap_map]
      exact .refl _
    | _ => exact .refl _
  inside := by
    intro value part hp
    cases value with
    | object members =>
      obtain ⟨operator, _, ho⟩ := List.mem_filterMap.mp hp
      obtain ⟨inner, hl, rfl⟩ := Option.map_eq_some_iff.mp ho
      exact List.mem_map.mpr ⟨(operator, inner), Json.mem_of_lookup hl, rfl⟩
    | _ => exact hp
  nodup_parts := by
    intro value hd
    cases value with
    | object members =>
      rw [choiceParts, List.map_filterMap]
      refine List.Nodup.filterMap ?_ (by decide)
      intro operator other step hs ho
      simp only [Option.map_map, Option.mem_def, Option.map_eq_some_iff, Function.comp_apply] at hs ho
      obtain ⟨_, _, rfl⟩ := hs
      obtain ⟨_, _, he⟩ := ho
      exact (LocationStep.key.inj he).symm
    | _ => exact hd.nodup_parts
  nodup_own := by
    intro place value _
    cases value with
    | object members =>
      rw [ownVariableProblems, variableProblems]
      split
      · split <;> simp
      · exact List.nodup_nil
    | _ => exact List.nodup_nil
  place_unique := by
    intro place place' value value' p hp hp'
    obtain ⟨_, _, _, _, _, rfl⟩ := Iff.mp mem_ownVariableProblems_iff hp
    obtain ⟨_, _, _, _, _, he⟩ := Iff.mp mem_ownVariableProblems_iff hp'
    exact Problem.invalidVariable.inj he

/-! One state. -/

lemma mem_pathProblems_iff {state : Json} {place : Location} {field : String} {nullable : Bool} {p : Problem} :
    p ∈ pathProblems state place field nullable ↔
      (nullable = false ∧ state.get? field = some .null ∧ p = .nullPath field place) ∨
        ∃ value, state.get? field = some value ∧ value ≠ .null ∧ ¬IsPathText value ∧ p = .invalidPath field place := by
  rw [pathProblems]
  split
  · next hf => simp [hf]
  · next hf => cases nullable <;> simp [hf]
  · next value hne hf =>
    have hn : value ≠ .null := hne
    rw [hf]
    split
    · next hv =>
      rw [isPayloadPathValue_iff] at hv
      simp [hn, hv]
    · next hv =>
      rw [isPayloadPathValue_iff] at hv
      simp [hn, hv]

lemma mem_templateProblems_iff {template : String} {place : Location} {value : Json} {p : Problem} :
    p ∈ templateProblems template place value ↔ ∃ there members key found,
      ReachedBy templateParts place value there (.object members) ∧ (key, found) ∈ members ∧ AsksForPath key ∧
        ¬IsPathOrCall found ∧ p = .invalidPayloadPath key template there := by
  rw [(collects_template template).mem_iff]
  constructor
  · rintro ⟨there, inner, hr, hp⟩
    obtain ⟨members, key, found, rfl, hkey⟩ := Iff.mp mem_keyProblems_iff hp
    exact ⟨there, members, key, found, hr, hkey⟩
  · rintro ⟨there, members, key, found, hr, hp⟩
    exact ⟨there, _, hr, Iff.mpr mem_keyProblems_iff ⟨members, key, found, rfl, hp⟩⟩

lemma mem_choiceProblems_iff {place : Location} {value : Json} {p : Problem} :
    p ∈ choiceProblems place value ↔ ∃ there members found,
      ReachedBy choiceParts place value there (.object members) ∧ members.lookup "Variable" = some found ∧
        ¬IsPathText found ∧ p = .invalidVariable there := by
  rw [collects_choice.mem_iff]
  constructor
  · rintro ⟨there, inner, hr, hp⟩
    obtain ⟨members, found, rfl, hvariable⟩ := Iff.mp mem_ownVariableProblems_iff hp
    exact ⟨there, members, found, hr, hvariable⟩
  · rintro ⟨there, members, found, hr, hp⟩
    exact ⟨there, _, hr, Iff.mpr mem_ownVariableProblems_iff ⟨members, found, rfl, hp⟩⟩

/-- The problems of the fields that hold templates. -/
lemma mem_templateFields_iff {state : Json} {place : Location} {field : String} {p : Problem} :
    p ∈ ((state.get? field).map (templateProblems field place)).getD [] ↔
      ∃ value, state.get? field = some value ∧ p ∈ templateProblems field place value := by
  cases state.get? field <;> simp

lemma mem_choices_iff {state : Json} {place : Location} {p : Problem} :
    p ∈ (if hasStateType state "Choice" then
        ((state.get? "Choices").map (choiceProblems (place.key "Choices"))).getD [] else []) ↔
      state.get? "Type" = some (.string "Choice") ∧
        ∃ value, state.get? "Choices" = some value ∧ p ∈ choiceProblems (place.key "Choices") value := by
  rw [← hasStateType_iff]
  cases hasStateType state "Choice" <;> cases state.get? "Choices" <;> simp

theorem mem_stateProblems_iff {state : Json} {place : Location} {p : Problem} :
    p ∈ stateProblems state place ↔ StateFlaw state place p := by
  rw [stateProblems, List.mem_append, List.mem_append, List.mem_flatMap, List.mem_flatMap, mem_choices_iff]
  constructor
  · rintro ((⟨field, hfield, hp⟩ | ⟨field, hfield, hp⟩) | ⟨htype, value, hv, hp⟩)
    · rcases Iff.mp mem_pathProblems_iff hp with ⟨hn, hf, rfl⟩ | ⟨value, hf, hne, hv, rfl⟩
      · obtain rfl : field = ("ItemsPath", false) := by
          have hitems : ∀ field ∈ pathFields, field.2 = false → field = ("ItemsPath", false) := by decide
          exact hitems field hfield hn
        exact .nullItems hf
      · exact .path (List.mem_map_of_mem (f := Prod.fst) hfield) hf hne hv
    · obtain ⟨value, hv, hp⟩ := Iff.mp mem_templateFields_iff hp
      obtain ⟨there, members, key, found, hr, hm, hk, hn, rfl⟩ := Iff.mp mem_templateProblems_iff hp
      exact .payload hfield hv hr hm hk hn
    · obtain ⟨there, members, found, hr, hl, hn, rfl⟩ := Iff.mp mem_choiceProblems_iff hp
      exact .choice htype hv hr hl hn
  · intro h
    cases h with
    | nullItems hf =>
      exact .inl (.inl ⟨("ItemsPath", false), by decide, Iff.mpr mem_pathProblems_iff (.inl ⟨rfl, hf, rfl⟩)⟩)
    | @path field value hfield hf hne hv =>
      obtain ⟨field, hm, rfl⟩ : ∃ entry ∈ pathFields, entry.1 = field := List.mem_map.mp hfield
      exact .inl (.inl ⟨field, hm, Iff.mpr mem_pathProblems_iff (.inr ⟨value, hf, hne, hv, rfl⟩)⟩)
    | payload ht hv hr hm hk hn =>
      exact .inl (.inr ⟨_, ht, Iff.mpr mem_templateFields_iff ⟨_, hv, Iff.mpr mem_templateProblems_iff
        ⟨_, _, _, _, hr, hm, hk, hn, rfl⟩⟩⟩)
    | choice htype hv hr hl hn =>
      exact .inr ⟨htype, _, hv, Iff.mpr mem_choiceProblems_iff ⟨_, _, _, hr, hl, hn, rfl⟩⟩

lemma nodup_pathProblems (state : Json) (place : Location) (field : String) (nullable : Bool) :
    (pathProblems state place field nullable).Nodup := by
  rw [pathProblems]
  split
  · exact List.nodup_nil
  · cases nullable <;> simp
  · split <;> simp

/-- The problems of a field that holds a path name the field. -/
lemma eq_of_mem_pathProblems {state : Json} {place : Location} {field : String} {nullable : Bool} {p : Problem}
    (h : p ∈ pathProblems state place field nullable) : p = .nullPath field place ∨ p = .invalidPath field place := by
  rcases Iff.mp mem_pathProblems_iff h with ⟨_, _, hp⟩ | ⟨_, _, _, _, hp⟩
  · exact .inl hp
  · exact .inr hp

/-! Nothing is reported twice. -/

section

variable {state : Json} (h : state.KeysDistinct) (place : Location)

lemma nodup_paths : (pathFields.flatMap fun field => pathProblems state place field.1 field.2).Nodup := by
  have hne : pathFields.Pairwise fun field other => field.1 ≠ other.1 := by decide
  refine List.nodup_flatMap.mpr ⟨fun field _ => nodup_pathProblems state place field.1 field.2, hne.imp ?_⟩
  intro field other hne p hp ho
  rcases eq_of_mem_pathProblems hp with rfl | rfl
  · rcases eq_of_mem_pathProblems ho with he | he
    · exact hne (Problem.nullPath.inj he).1
    · exact Problem.noConfusion he
  · rcases eq_of_mem_pathProblems ho with he | he
    · exact Problem.noConfusion he
    · exact hne (Problem.invalidPath.inj he).1

include h

lemma keysDistinct_field {name : String} {value : Json} (hv : state.get? name = some value) :
    value.KeysDistinct := by
  cases state with
  | object members => exact ((Json.keysDistinct_object_iff members).mp h).2 _ (Json.mem_of_lookup hv)
  | _ => exact absurd hv (by simp [Json.get?])

lemma nodup_templates : (templateFields.flatMap fun field =>
    ((state.get? field).map (templateProblems field place)).getD []).Nodup := by
  have hne : templateFields.Pairwise (· ≠ ·) := by decide
  refine List.nodup_flatMap.mpr ⟨?_, hne.imp ?_⟩
  · intro field _
    cases hv : state.get? field with
    | none => exact List.nodup_nil
    | some value => exact (collects_template field).nodup (keysDistinct_field h hv)
  · intro field other hne p hp ho
    obtain ⟨_, _, htemplate⟩ := Iff.mp mem_templateFields_iff hp
    obtain ⟨_, _, hother⟩ := Iff.mp mem_templateFields_iff ho
    obtain ⟨_, _, _, _, _, _, _, _, rfl⟩ := Iff.mp mem_templateProblems_iff htemplate
    obtain ⟨_, _, _, _, _, _, _, _, he⟩ := Iff.mp mem_templateProblems_iff hother
    exact hne (Problem.invalidPayloadPath.inj he).2.1

lemma nodup_choices : (if hasStateType state "Choice" then
    ((state.get? "Choices").map (choiceProblems (place.key "Choices"))).getD [] else []).Nodup := by
  split
  · cases hv : state.get? "Choices" with
    | none => exact List.nodup_nil
    | some value => exact collects_choice.nodup (keysDistinct_field h hv)
  · exact List.nodup_nil

omit h in
lemma kind_of_mem_paths {p : Problem}
    (hp : p ∈ pathFields.flatMap fun field => pathProblems state place field.1 field.2) :
    p.kind = .nullField ∨ p.kind = .invalidPathField := by
  obtain ⟨field, _, hp⟩ := List.mem_flatMap.mp hp
  rcases eq_of_mem_pathProblems hp with rfl | rfl
  · exact .inl rfl
  · exact .inr rfl

omit h in
lemma kind_of_mem_templates {p : Problem} (hp : p ∈ templateFields.flatMap fun field =>
    ((state.get? field).map (templateProblems field place)).getD []) : p.kind = .invalidPayloadPath := by
  obtain ⟨template, _, hp⟩ := List.mem_flatMap.mp hp
  obtain ⟨value, _, hp⟩ := Iff.mp mem_templateFields_iff hp
  obtain ⟨_, _, _, _, _, _, _, _, rfl⟩ := Iff.mp mem_templateProblems_iff hp
  rfl

omit h in
lemma kind_of_mem_choices {p : Problem} (hp : p ∈ if hasStateType state "Choice" then
    ((state.get? "Choices").map (choiceProblems (place.key "Choices"))).getD [] else []) :
    p.kind = .invalidChoiceVariable := by
  obtain ⟨_, _, _, hp⟩ := Iff.mp mem_choices_iff hp
  obtain ⟨_, _, _, _, _, _, rfl⟩ := Iff.mp mem_choiceProblems_iff hp
  rfl

theorem nodup_stateProblems : (stateProblems state place).Nodup := by
  rw [stateProblems, List.nodup_append', List.nodup_append']
  refine ⟨⟨nodup_paths place, nodup_templates h place, ?_⟩, nodup_choices h place, ?_⟩
  · intro p hp ht
    have hk := kind_of_mem_templates place ht
    rcases kind_of_mem_paths place hp with he | he <;> exact absurd (he.symm.trans hk) (by decide)
  · intro p hp hc
    have hk := kind_of_mem_choices place hc
    rcases List.mem_append.mp hp with hp | hp
    · rcases kind_of_mem_paths place hp with he | he <;> exact absurd (he.symm.trans hk) (by decide)
    · exact absurd ((kind_of_mem_templates place hp).symm.trans hk) (by decide)

end

/-! All states. -/

/-- The states that are looked into at an object, if it is a machine, and their places. -/
def lookedInto : Trail → List (Location × Json)
  | [] => []
  | site :: _ =>
    (((statesOf? site.members).getD []).filter fun state => state.2.hasType .object).map fun state =>
      ((site.place.key "States").key state.1, state.2)

/-- The kinds of problems within states. -/
def flawKinds : List ProblemKind :=
  [.nullField, .invalidPathField, .invalidPayloadPath, .invalidChoiceVariable]

lemma StateFlaw.kind_mem {state : Json} {place : Location} {p : Problem} (h : StateFlaw state place p) :
    p.kind ∈ flawKinds := by
  cases h <;> simp [Problem.kind, flawKinds]

lemma insideProblems_eq (place : Location) (states : List (String × Json)) :
    insideProblems place states = ((states.filter fun state => state.2.hasType .object).map fun state =>
      (place.key state.1, state.2)).flatMap fun state => stateProblems state.2 state.1 := by
  rw [insideProblems, List.flatMap_map]
  induction states with
  | nil => rfl
  | cons state states ih =>
    rw [List.flatMap_cons, ih, List.filter_cons]
    cases state.2.hasType .object <;> rfl

lemma filter_handlerFieldProblems (place : Location) (members : List (String × Json)) (field : String) :
    (handlerFieldProblems place members field).filter (·.kind ∈ flawKinds) = [] := by
  rw [handlerFieldProblems, List.filter_eq_nil_iff]
  cases members.lookup field with
  | none => exact List.forall_mem_nil _
  | some handlers =>
    simp only [Option.map_some, Option.getD_some, handlerProblems, Option.toList_map, List.forall_mem_map]
    intro _ _
    simp [Problem.kind, flawKinds]

lemma filter_localReports (trail : Trail) : (localReports trail).filter (·.kind ∈ flawKinds) =
    (lookedInto trail).flatMap fun state => stateProblems state.2 state.1 := by
  cases trail with
  | nil => rfl
  | cons site outer =>
    rw [localReports, List.filter_append, List.filter_append, filter_handlerFieldProblems,
      filter_handlerFieldProblems, List.append_nil, List.append_nil, insideProblems_eq, lookedInto,
      List.filter_eq_self]
    intro p hp
    obtain ⟨state, _, hs⟩ := List.mem_flatMap.mp hp
    rw [decide_eq_true_eq]
    exact (mem_stateProblems_iff.mp hs).kind_mem

lemma isOther_of_kind_mem {p : Problem} (h : p.kind ∈ flawKinds) : p.isOther = true := by
  cases p <;> simp_all [Problem.kind, flawKinds, Problem.isOther, Problem.isMachineLevel, Problem.isRepeatedName]

/-- The problems within states are reported state by state, along the walk. For each state they are its flaws, and
none of them is reported twice. -/
theorem stateFlaws (document : Json) (root : Location) :
    (machineProblems document root).filter (·.kind ∈ flawKinds) =
        ((visits root document).flatMap lookedInto).flatMap (fun state => stateProblems state.2 state.1) ∧
      ∀ state place, (∀ p, p ∈ stateProblems state place ↔ StateFlaw state place p) ∧
        (state.KeysDistinct → (stateProblems state place).Nodup) := by
  refine ⟨?_, fun state place => ⟨fun p => mem_stateProblems_iff, fun h => nodup_stateProblems h place⟩⟩
  have hfound : (machineProblems document root).filter Problem.isOther = (visits root document).flatMap localReports :=
    finds_visit [] root document {}
  have hfilter : (machineProblems document root).filter (·.kind ∈ flawKinds) =
      ((machineProblems document root).filter Problem.isOther).filter (·.kind ∈ flawKinds) := by
    rw [List.filter_filter]
    refine List.filter_congr fun p _ => ?_
    by_cases hk : p.kind ∈ flawKinds
    · simp [hk, isOther_of_kind_mem hk]
    · simp [hk]
  rw [hfilter, hfound, List.filter_flatMap, List.flatMap_assoc]
  exact List.flatMap_congr fun trail _ => filter_localReports trail

end StatesLanguage

end ProseSchema
