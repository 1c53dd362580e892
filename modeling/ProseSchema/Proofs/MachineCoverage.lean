import ProseSchema.Proofs.MachineAlone

/-!
# Which machines are checked

The walk comes to the machines in nested objects and in arrays of objects. It passes over what is inside an array
of arrays or in a document that is an array itself. Which machines are entered can therefore be told from the way
to each of them, where every index has to stand right behind a key.
-/

namespace ProseSchema.StatesLanguage

/-- No index stands first, and none right behind another one. -/
def indicesBehindKeys : List LocationStep → Bool
  | [] => true
  | .index _ :: _ => false
  | .key _ :: .index _ :: steps => indicesBehindKeys steps
  | .key _ :: steps => indicesBehindKeys steps

lemma indicesBehindKeys_key {steps : List LocationStep} (h : indicesBehindKeys steps = true) (name : String) :
    indicesBehindKeys (.key name :: steps) = true := by
  cases steps with
  | nil => rfl
  | cons step steps =>
    cases step with
    | key other =>
      rw [indicesBehindKeys]
      · exact h
      · simp
    | index i => simp [indicesBehindKeys] at h

lemma indicesBehindKeys_append {steps later : List LocationStep} (h : indicesBehindKeys steps = true)
    (hl : indicesBehindKeys later = true) : indicesBehindKeys (steps ++ later) = true := by
  induction steps using indicesBehindKeys.induct with
  | case1 => exact hl
  | case2 i steps => simp [indicesBehindKeys] at h
  | case3 name i steps ih =>
    rw [indicesBehindKeys] at h
    exact ih h
  | case4 name steps hn ih =>
    rw [indicesBehindKeys] at h
    · exact indicesBehindKeys_key (ih h) name
    · exact hn

/-- Steps without an index at their start lead to an object from an object only. -/
lemma exists_members_of_at? {value : Json} {steps : List LocationStep} {members : List (String × Json)}
    (hb : indicesBehindKeys steps = true) (h : value.at? steps = some (.object members)) :
    ∃ outer, value = .object outer := by
  cases steps with
  | nil => exact ⟨members, Option.some.inj h⟩
  | cons step steps =>
    cases step with
    | key name =>
      cases value with
      | object outer => exact ⟨outer, rfl⟩
      | _ => simp [Json.at?] at h
    | index i => simp [indicesBehindKeys] at hb

/-- From an object on, such steps lead to an object that is visited. -/
lemma reached_of_at? (site : Site) (outer : Trail) {steps : List LocationStep} {members : List (String × Json)}
    (hb : indicesBehindKeys steps = true) (h : (Json.object site.members).at? steps = some (.object members)) :
    ∃ around, Relation.ReflTransGen Inside (site :: outer)
      (⟨⟨site.place.root, site.place.steps ++ steps⟩, members⟩ :: around) := by
  induction steps using indicesBehindKeys.induct generalizing site outer with
  | case1 =>
    obtain rfl : site.members = members := Json.object.inj (Option.some.inj h)
    rw [List.append_nil]
    exact ⟨outer, .refl⟩
  | case2 i steps => simp [indicesBehindKeys] at hb
  | case3 name i steps ih =>
    rw [indicesBehindKeys] at hb
    obtain ⟨value, hv, h⟩ := Option.bind_eq_some_iff.mp h
    cases value with
    | array elements =>
      obtain ⟨element, he, h⟩ := Option.bind_eq_some_iff.mp h
      obtain ⟨inner, rfl⟩ := exists_members_of_at? hb h
      have hi : Inside (site :: outer) (⟨(site.place.key name).index i, inner⟩ :: site :: outer) :=
        .element (Json.mem_of_lookup hv) he
      obtain ⟨around, hr⟩ := ih ⟨(site.place.key name).index i, inner⟩ (site :: outer) hb h
      have hs : ((site.place.key name).index i).steps ++ steps =
          site.place.steps ++ .key name :: .index i :: steps := by
        simp [Location.key, Location.index]
      rw [hs] at hr
      exact ⟨around, .head hi hr⟩
    | _ => simp [Json.at?] at h
  | case4 name steps hn ih =>
    have hb : indicesBehindKeys steps = true := by
      rw [indicesBehindKeys] at hb
      · exact hb
      · exact hn
    obtain ⟨value, hv, h⟩ := Option.bind_eq_some_iff.mp h
    obtain ⟨inner, rfl⟩ := exists_members_of_at? hb h
    have hi : Inside (site :: outer) (⟨site.place.key name, inner⟩ :: site :: outer) :=
      .member (Json.mem_of_lookup hv)
    obtain ⟨around, hr⟩ := ih ⟨site.place.key name, inner⟩ (site :: outer) hb h
    have hs : (site.place.key name).steps ++ steps = site.place.steps ++ .key name :: steps := by
      simp [Location.key]
    rw [hs] at hr
    exact ⟨around, .head hi hr⟩

variable {document : Json} {root : String} {steps : List LocationStep} {members : List (String × Json)}

lemma visited_of_at? (root : String) (hb : indicesBehindKeys steps = true)
    (h : document.at? steps = some (.object members)) :
    ∃ outer, Visited document (.ofRoot root) (⟨⟨root, steps⟩, members⟩ :: outer) := by
  obtain ⟨all, rfl⟩ := exists_members_of_at? hb h
  obtain ⟨outer, hr⟩ := reached_of_at? ⟨.ofRoot root, all⟩ [] hb h
  exact ⟨outer, all, rfl, hr⟩

/-- The walk enters nothing but at such steps. -/
lemma Enters.indicesBehindKeys {place : Location} {value : Json} {reported : List Problem} {walk : Walk}
    (h : Enters document (.ofRoot root) place value reported walk) : indicesBehindKeys place.steps = true := by
  induction h with
  | document => rfl
  | member _ _ _ ih => exact indicesBehindKeys_append ih rfl
  | @element place name _ front _ _ _ _ _ _ _ _ ih =>
    have hs : ((place.key name).index front.length).steps =
        place.steps ++ [.key name, .index front.length] := by
      simp [Location.key, Location.index]
    rw [hs]
    exact indicesBehindKeys_append ih rfl

/-! Machines that cannot end. -/

lemma noTerminalState_mem_entryReports_iff {place other : Location} {states : List (String × Json)} :
    .noTerminalState place ∈ entryReports other members states ↔
      place = other ∧ ∀ state ∈ states, ¬MayEnd state.2 := by
  unfold entryReports
  split
  · next h => simpa using fun _ => h
  · next h => simpa using fun _ => h

lemma noTerminalState_mem_reports_iff {found : List Trail} {site : Site} {outer : Trail} {place : Location} :
    .noTerminalState place ∈ reports found (site :: outer) ↔
      place = site.place ∧
        ∃ states, statesOf? site.members = some states ∧ ∀ state ∈ states, ¬MayEnd state.2 := by
  have ht (states : List (String × Json)) (field : String) :
      .noTerminalState place ∉ transitionReports states site.place site.members field := by
    simp [transitionReports]
  have hu (states : List (String × Json)) :
      .noTerminalState place ∉ unreachableReports found site outer states := by
    simp [unreachableReports]
  have hlast : .noTerminalState place ∉ ((statesAt? (innermost (site :: outer))).map fun states =>
      transitionReports states site.place site.members "Next" ++
        transitionReports states site.place site.members "Default").getD [] := by
    cases statesAt? (innermost (site :: outer)) <;> simp [ht]
  rw [reports, List.mem_append, or_iff_left hlast]
  cases hs : statesOf? site.members with
  | none => simp
  | some states => simp [hu, noTerminalState_mem_entryReports_iff]

/-- A machine that cannot end is reported where an object is visited that is one. -/
lemma noTerminalState_mem_iff {place : Location} :
    .noTerminalState place ∈ machineProblems document (.ofRoot root) ↔
      ∃ site outer, Visited document (.ofRoot root) (site :: outer) ∧ place = site.place ∧
        ∃ states, statesOf? site.members = some states ∧ ∀ state ∈ states, ¬MayEnd state.2 := by
  have hperm := (visit_document_effect document (.ofRoot root)).reports_perm
  have hfilter : .noTerminalState place ∈ machineProblems document (.ofRoot root) ↔
      .noTerminalState place ∈ allReports (visits (.ofRoot root) document) := by
    rw [← hperm.mem_iff, List.mem_filter]
    exact (and_iff_left rfl).symm
  rw [hfilter, allReports, List.mem_flatMap]
  constructor
  · rintro ⟨trail, hv, hr⟩
    cases trail with
    | nil => simp [reports] at hr
    | cons site outer =>
      exact ⟨site, outer, (mem_visits_iff _ _ _).mp hv, noTerminalState_mem_reports_iff.mp hr⟩
  · rintro ⟨site, outer, hv, hr⟩
    exact ⟨site :: outer, (mem_visits_iff _ _ _).mpr hv, noTerminalState_mem_reports_iff.mpr hr⟩

/-- A machine that stands somewhere in a document is entered exactly when each index on the way to it stands
right behind a key; and where it has no state to end in, this is just when that is reported. -/
theorem machine_entered_iff (root : String) {states : List (String × Json)}
    (h : document.at? steps = some (.object members)) (hs : statesOf? members = some states) :
    ((∃ reported walk, Enters document (.ofRoot root) ⟨root, steps⟩ (.object members) reported walk) ↔
      indicesBehindKeys steps = true) ∧
    ((∀ state ∈ states, ¬MayEnd state.2) →
      (.noTerminalState ⟨root, steps⟩ ∈ machineProblems document (.ofRoot root) ↔
        indicesBehindKeys steps = true)) := by
  refine ⟨⟨?_, ?_⟩, ?_⟩
  · rintro ⟨reported, walk, he⟩
    exact he.indicesBehindKeys
  · intro hb
    obtain ⟨outer, hv⟩ := visited_of_at? root hb h
    exact hv.enters
  · intro hend
    rw [noTerminalState_mem_iff]
    constructor
    · rintro ⟨site, outer, hv, hplace, _⟩
      obtain ⟨reported, walk, he⟩ := hv.enters
      rw [← hplace] at he
      exact he.indicesBehindKeys
    · intro hb
      obtain ⟨outer, hv⟩ := visited_of_at? root hb h
      exact ⟨_, outer, hv, rfl, states, hs, hend⟩

/-- A machine without any states. -/
def stateless : List (String × Json) :=
  [("States", .object [])]

def besideNull : Json :=
  .object [("a", .array [.null, .object [("b", .object stateless)]])]

theorem stateless_entered :
    let place : Location := ⟨"r", [.key "a", .index 1, .key "b"]⟩
    besideNull.at? place.steps = some (.object stateless) ∧ statesOf? stateless = some [] ∧
    (∃ reported walk, Enters besideNull (.ofRoot "r") place (.object stateless) reported walk) ∧
    .noTerminalState place ∈ machineProblems besideNull (.ofRoot "r") := by
  intro place
  have h : besideNull.at? place.steps = some (.object stateless) := rfl
  have hs : statesOf? stateless = some [] := rfl
  obtain ⟨hentered, hreported⟩ := machine_entered_iff "r" h hs
  exact ⟨h, hs, hentered.mpr rfl, (hreported (List.forall_mem_nil _)).mpr rfl⟩

/-- The machine stands in an array that is itself an element. -/
def nestedArrays : Json :=
  .object [("a", .array [.array [.object stateless]])]

theorem nestedArrays_passed_over :
    let place : Location := ⟨"r", [.key "a", .index 0, .index 0]⟩
    nestedArrays.at? place.steps = some (.object stateless) ∧ statesOf? stateless = some [] ∧
    (¬∃ reported walk, Enters nestedArrays (.ofRoot "r") place (.object stateless) reported walk) ∧
    machineProblems nestedArrays (.ofRoot "r") = [] := by
  refine ⟨rfl, rfl, ?_, rfl⟩
  rintro ⟨reported, walk, he⟩
  exact absurd he.indicesBehindKeys (by decide)

end ProseSchema.StatesLanguage
