import Mathlib.Data.List.Nodup
import Mathlib.Logic.Relation
import Mathlib.Tactic.Lemma
import ProseSchema.Json.Lemmas
import ProseSchema.StatesLanguage.Walk

/-!
# The objects that are visited

A visited object is known by its trail: itself, and then the objects around it, out to the document. Main
statement: the trails that are listed along the walk are those of the visited objects, each listed once.
-/

namespace ProseSchema.StatesLanguage

/-- An object and where it stands. -/
structure Site where
  place : Location
  members : List (String × Json)
  deriving DecidableEq

/-- A visited object and those around it, the innermost first. -/
abbrev Trail : Type := List Site

/-- One trail leads to an object of another one, through a member or an element of a member. -/
inductive Inside : Trail → Trail → Prop
  | member {site : Site} {outer : Trail} {name : String} {members : List (String × Json)}
    (h : (name, .object members) ∈ site.members) :
    Inside (site :: outer) (⟨site.place.key name, members⟩ :: site :: outer)
  | element {site : Site} {outer : Trail} {name : String} {elements : List Json} {i : Nat}
    {members : List (String × Json)}
    (h : (name, .array elements) ∈ site.members) (hi : elements[i]? = some (.object members)) :
    Inside (site :: outer) (⟨(site.place.key name).index i, members⟩ :: site :: outer)

/-- The trail is that of a visited object of the document. -/
def Visited (document : Json) (root : Location) (trail : Trail) : Prop :=
  ∃ members, document = .object members ∧ Relation.ReflTransGen Inside [⟨root, members⟩] trail

mutual

/-- The trails of the objects that are visited from a value on, in the order of the walk. -/
def trails (outer : Trail) (place : Location) : Json → List Trail
  | .object members =>
    (⟨place, members⟩ :: outer) :: memberTrails (⟨place, members⟩ :: outer) place members
  | _ => []

def memberTrails (outer : Trail) (place : Location) : List (String × Json) → List Trail
  | [] => []
  | (name, .array elements) :: members =>
    elementTrails outer (place.key name) 0 elements ++ memberTrails outer place members
  | (name, value) :: members =>
    trails outer (place.key name) value ++ memberTrails outer place members

def elementTrails (outer : Trail) (place : Location) : (start : Nat) → List Json → List Trail
  | _, [] => []
  | start, element :: elements =>
    trails outer (place.index start) element ++ elementTrails outer place (start + 1) elements

end

/-- The trails from one member of an object on. -/
def fieldTrails (outer : Trail) (place : Location) (name : String) : Json → List Trail
  | .array elements => elementTrails outer (place.key name) 0 elements
  | value => trails outer (place.key name) value

/-- The trails of the visited objects of a document. -/
def visits (root : Location) (document : Json) : List Trail :=
  trails [] root document

lemma memberTrails_cons (outer : Trail) (place : Location) (name : String) (value : Json)
    (members : List (String × Json)) :
    memberTrails outer place ((name, value) :: members) =
      fieldTrails outer place name value ++ memberTrails outer place members := by
  cases value <;> rfl

lemma memberTrails_eq_flatMap (outer : Trail) (place : Location) (members : List (String × Json)) :
    memberTrails outer place members =
      members.flatMap fun member => fieldTrails outer place member.1 member.2 := by
  induction members with
  | nil => rfl
  | cons member members ih => rw [memberTrails_cons, ih, List.flatMap_cons]

lemma mem_elementTrails {outer : Trail} {place : Location} {start : Nat} {elements : List Json}
    {trail : Trail} :
    trail ∈ elementTrails outer place start elements ↔
      ∃ i element, elements[i]? = some element ∧ trail ∈ trails outer (place.index (start + i)) element := by
  induction elements generalizing start with
  | nil => simp [elementTrails]
  | cons element elements ih =>
    rw [elementTrails, List.mem_append, ih]
    constructor
    · rintro (h | ⟨i, inner, hi, h⟩)
      · exact ⟨0, element, rfl, h⟩
      · refine ⟨i + 1, inner, hi, ?_⟩
        rwa [← Nat.add_assoc, Nat.add_right_comm]
    · rintro ⟨i, inner, hi, h⟩
      cases i with
      | zero =>
        obtain rfl : element = inner := by simpa using hi
        exact .inl h
      | succ i =>
        refine .inr ⟨i, inner, hi, ?_⟩
        rwa [Nat.add_right_comm, Nat.add_assoc]

lemma mem_fieldTrails_object {outer : Trail} {place : Location} {name : String}
    {members : List (String × Json)} {trail : Trail} :
    trail ∈ fieldTrails outer place name (.object members) ↔
      trail ∈ trails outer (place.key name) (.object members) :=
  Iff.rfl

lemma mem_fieldTrails_array {outer : Trail} {place : Location} {name : String} {elements : List Json}
    {trail : Trail} :
    trail ∈ fieldTrails outer place name (.array elements) ↔
      ∃ i element, elements[i]? = some element ∧
        trail ∈ trails outer ((place.key name).index i) element := by
  rw [fieldTrails, mem_elementTrails]
  simp only [Nat.zero_add]

/-- The trails of the objects that are visited from the first object of a trail on. -/
def trailsFrom : Trail → List Trail
  | [] => []
  | site :: outer => trails outer site.place (.object site.members)

lemma mem_trailsFrom_self (site : Site) (outer : Trail) : site :: outer ∈ trailsFrom (site :: outer) := by
  unfold trailsFrom trails
  exact List.mem_cons_self

/-- Whatever is listed from an object inside is listed from the object around it. -/
lemma mem_trailsFrom_of_inside {trail next inner : Trail} (h : Inside trail next)
    (hi : inner ∈ trailsFrom next) : inner ∈ trailsFrom trail := by
  cases h with
  | member h =>
    rw [trailsFrom, trails, memberTrails_eq_flatMap]
    exact List.mem_cons_of_mem _ (List.mem_flatMap.mpr ⟨_, h, mem_fieldTrails_object.mpr hi⟩)
  | element h he =>
    rw [trailsFrom, trails, memberTrails_eq_flatMap]
    exact List.mem_cons_of_mem _
      (List.mem_flatMap.mpr ⟨_, h, mem_fieldTrails_array.mpr ⟨_, _, he, hi⟩⟩)

mutual

theorem reached_of_mem_trails (outer : Trail) (place : Location) (value : Json) (trail : Trail)
    (h : trail ∈ trails outer place value) :
    ∃ members, value = .object members ∧
      Relation.ReflTransGen Inside (⟨place, members⟩ :: outer) trail := by
  match value with
  | .object members =>
    refine ⟨members, rfl, ?_⟩
    rw [trails, List.mem_cons] at h
    rcases h with rfl | h
    · exact .refl
    · exact reached_of_mem_memberTrails ⟨place, members⟩ outer members (fun _ hm => hm) trail h
  | .null | .bool _ | .number _ | .string _ | .array _ => simp [trails] at h

theorem reached_of_mem_memberTrails (site : Site) (outer : Trail) (members : List (String × Json))
    (sub : members ⊆ site.members) (trail : Trail)
    (h : trail ∈ memberTrails (site :: outer) site.place members) :
    Relation.ReflTransGen Inside (site :: outer) trail := by
  match members with
  | [] => simp [memberTrails] at h
  | (name, value) :: members =>
    have hv : (name, value) ∈ site.members := sub List.mem_cons_self
    rw [memberTrails_cons, List.mem_append] at h
    rcases h with h | h
    · cases value with
      | array elements =>
        exact reached_of_mem_elementTrails site outer name elements hv 0 elements List.drop_zero trail h
      | _ =>
        obtain ⟨inner, he, hr⟩ := reached_of_mem_trails _ _ _ _ h
        rw [he] at hv
        exact .head (.member hv) hr
    · exact reached_of_mem_memberTrails site outer members (fun _ hm => sub (.tail _ hm)) trail h

theorem reached_of_mem_elementTrails (site : Site) (outer : Trail) (name : String) (all : List Json)
    (hm : (name, .array all) ∈ site.members) (start : Nat) (elements : List Json)
    (hd : all.drop start = elements) (trail : Trail)
    (h : trail ∈ elementTrails (site :: outer) (site.place.key name) start elements) :
    Relation.ReflTransGen Inside (site :: outer) trail := by
  match elements with
  | [] => simp [elementTrails] at h
  | element :: elements =>
    rw [elementTrails, List.mem_append] at h
    rcases h with h | h
    · obtain ⟨inner, rfl, hr⟩ := reached_of_mem_trails _ _ _ _ h
      have hi : all[start]? = some (.object inner) := by rw [← List.head?_drop, hd, List.head?_cons]
      exact .head (.element hm hi) hr
    · have hd' : all.drop (start + 1) = elements := by rw [← List.tail_drop, hd, List.tail_cons]
      exact reached_of_mem_elementTrails site outer name all hm (start + 1) elements hd' trail h

end

/-- From an object on, exactly the objects that steps lead to are listed. -/
theorem mem_trailsFrom_iff (site : Site) (outer trail : Trail) :
    trail ∈ trailsFrom (site :: outer) ↔ Relation.ReflTransGen Inside (site :: outer) trail := by
  constructor
  · intro h
    obtain ⟨_, he, hr⟩ := reached_of_mem_trails _ _ _ _ h
    cases he
    exact hr
  · intro h
    have hl : trail ∈ trailsFrom trail := by
      rcases Relation.ReflTransGen.cases_tail h with rfl | ⟨_, _, hi⟩
      · exact mem_trailsFrom_self site outer
      · cases hi <;> exact mem_trailsFrom_self _ _
    exact Relation.ReflTransGen.head_induction_on
      (motive := fun t _ => trail ∈ trailsFrom t) h hl fun hi _ ih => mem_trailsFrom_of_inside hi ih

/-- The listed trails are those of the visited objects. -/
theorem mem_visits_iff (document : Json) (root : Location) (trail : Trail) :
    trail ∈ visits root document ↔ Visited document root trail := by
  constructor
  · exact reached_of_mem_trails [] root document trail
  · rintro ⟨members, rfl, h⟩
    exact (mem_trailsFrom_iff ⟨root, members⟩ [] trail).mpr h

lemma Inside.exists_cons {trail next : Trail} (h : Inside trail next) : ∃ site, next = site :: trail := by
  cases h <;> exact ⟨_, rfl⟩

lemma suffix_of_reached {trail inner : Trail} (h : Relation.ReflTransGen Inside trail inner) :
    trail <:+ inner := by
  induction h with
  | refl => exact List.suffix_refl _
  | tail _ hi ih =>
    obtain ⟨site, rfl⟩ := hi.exists_cons
    exact ih.trans (List.suffix_cons _ _)

/-- Steps from the outside in pass through every trail between the two ends. -/
lemma reached_of_suffix {outer trail inner : Trail} (h : Relation.ReflTransGen Inside outer inner)
    (ho : outer <:+ trail) (hs : trail <:+ inner) : Relation.ReflTransGen Inside trail inner := by
  induction h with
  | refl =>
    rw [hs.eq_of_length_le ho.length_le]
  | tail _ hi ih =>
    obtain ⟨site, rfl⟩ := hi.exists_cons
    rcases List.suffix_cons_iff.mp hs with rfl | hs
    · exact .refl
    · exact (ih hs).tail hi

/-- The visited objects on whose trail an object stands are those that are visited from it on. -/
theorem Visited.mem_trailsFrom_of_suffix {document : Json} {root : Location} {trail : Trail}
    (h : Visited document root trail) {site : Site} {outer : Trail} (hs : site :: outer <:+ trail) :
    trail ∈ trailsFrom (site :: outer) := by
  obtain ⟨members, rfl, hr⟩ := h
  rw [mem_trailsFrom_iff]
  refine reached_of_suffix hr ?_ hs
  exact List.suffix_of_suffix_length_le (suffix_of_reached hr) hs (by simp)

theorem Visited.of_mem_trailsFrom {document : Json} {root : Location} {trail inner : Trail}
    (h : Visited document root trail) (hi : inner ∈ trailsFrom trail) : Visited document root inner := by
  cases trail with
  | nil => simp [trailsFrom] at hi
  | cons site outer =>
    obtain ⟨members, rfl, hr⟩ := h
    exact ⟨members, rfl, hr.trans ((mem_trailsFrom_iff site outer inner).mp hi)⟩

/-! Each visited object is listed once. -/

lemma suffix_of_mem_trails {outer : Trail} {place : Location} {value : Json} {trail : Trail}
    (h : trail ∈ trails outer place value) : ∃ members, ⟨place, members⟩ :: outer <:+ trail := by
  obtain ⟨members, _, hr⟩ := reached_of_mem_trails _ _ _ _ h
  exact ⟨members, suffix_of_reached hr⟩

lemma suffix_of_mem_fieldTrails {outer : Trail} {place : Location} {name : String} {value : Json}
    {trail : Trail} (h : trail ∈ fieldTrails outer place name value) :
    ∃ site : Site, site :: outer <:+ trail ∧ (place.key name).steps <+: site.place.steps := by
  cases value with
  | array elements =>
    obtain ⟨i, _, _, hi⟩ := mem_fieldTrails_array.mp h
    obtain ⟨members, hs⟩ := suffix_of_mem_trails hi
    exact ⟨_, hs, List.prefix_append _ _⟩
  | _ =>
    obtain ⟨members, hs⟩ := suffix_of_mem_trails h
    exact ⟨_, hs, List.prefix_refl _⟩

lemma site_eq_of_suffix {site other : Site} {outer trail : Trail} (h : site :: outer <:+ trail)
    (ho : other :: outer <:+ trail) : site = other := by
  have he := List.suffix_of_suffix_length_le h ho (by simp)
  exact List.head_eq_of_cons_eq (he.eq_of_length (by simp))

lemma fieldTrails_disjoint {outer : Trail} {place : Location} {name other : String} (hne : name ≠ other)
    (value otherValue : Json) :
    List.Disjoint (fieldTrails outer place name value) (fieldTrails outer place other otherValue) := by
  intro trail h ho
  obtain ⟨site, hs, hp⟩ := suffix_of_mem_fieldTrails h
  obtain ⟨otherSite, hos, hop⟩ := suffix_of_mem_fieldTrails ho
  rw [← site_eq_of_suffix hs hos] at hop
  have he : (place.key name).steps = (place.key other).steps :=
    (List.prefix_of_prefix_length_le hp hop (by simp [Location.key])).eq_of_length
      (by simp [Location.key])
  exact hne (by simpa [Location.key] using he)

lemma trails_index_disjoint {outer : Trail} {place : Location} {i j : Nat} (hne : i ≠ j)
    (value other : Json) :
    List.Disjoint (trails outer (place.index i) value) (trails outer (place.index j) other) := by
  intro trail h ho
  obtain ⟨_, hs⟩ := suffix_of_mem_trails h
  obtain ⟨_, hos⟩ := suffix_of_mem_trails ho
  have he := congrArg Site.place (site_eq_of_suffix hs hos)
  exact hne (by simpa [Location.index] using he)

lemma elementTrails_nodup {outer : Trail} {place : Location} (elements : List Json)
    (h : ∀ element ∈ elements, ∀ place, (trails outer place element).Nodup) (start : Nat) :
    (elementTrails outer place start elements).Nodup := by
  induction elements generalizing start with
  | nil => simp [elementTrails]
  | cons element elements ih =>
    unfold elementTrails
    refine List.Nodup.append (h _ List.mem_cons_self _)
      (ih (fun _ he => h _ (List.mem_cons_of_mem _ he)) _) ?_
    intro trail ht he
    obtain ⟨i, inner, _, hi⟩ := mem_elementTrails.mp he
    exact trails_index_disjoint (by omega) element inner ht hi

lemma memberTrails_nodup {outer : Trail} {place : Location} {members : List (String × Json)}
    (hk : (members.map Prod.fst).Nodup)
    (h : ∀ member ∈ members, (fieldTrails outer place member.1 member.2).Nodup) :
    (memberTrails outer place members).Nodup := by
  rw [memberTrails_eq_flatMap, List.nodup_flatMap]
  refine ⟨h, ?_⟩
  apply (List.pairwise_map.mp hk).imp
  intro _ _ hne
  exact fieldTrails_disjoint hne _ _

lemma trails_nodup {value : Json} (h : value.KeysDistinct) :
    (∀ outer place, (trails outer place value).Nodup) ∧
      ∀ outer place name, (fieldTrails outer place name value).Nodup := by
  induction h with
  | @intro value keys _ ih =>
    cases value with
    | object members =>
      have hm (outer : Trail) (place : Location) :
          (trails outer place (.object members)).Nodup := by
        rw [trails, List.nodup_cons]
        constructor
        · intro hmem
          rw [memberTrails_eq_flatMap, List.mem_flatMap] at hmem
          obtain ⟨member, _, hf⟩ := hmem
          obtain ⟨_, hs, _⟩ := suffix_of_mem_fieldTrails hf
          exact absurd hs.length_le (by simp)
        · apply memberTrails_nodup keys
          intro member hm
          exact (ih member.2 (List.mem_map_of_mem hm)).2 _ _ _
      refine ⟨hm, ?_⟩
      intro outer place name
      exact hm outer (place.key name)
    | array elements =>
      constructor
      · intro outer place
        simp [trails]
      · intro outer place name
        apply elementTrails_nodup
        intro element he
        exact (ih element he).1 _
    | _ =>
      constructor
      · intro outer place
        simp [trails]
      · intro outer place name
        simp [fieldTrails, trails]

/-- Where names are distinct in every object, no visited object is listed twice. -/
theorem visits_nodup {document : Json} (h : document.KeysDistinct) (root : Location) :
    (visits root document).Nodup :=
  (trails_nodup h).1 [] root

end ProseSchema.StatesLanguage
