import Mathlib.Data.List.Infix
import Mathlib.Data.List.Nodup
import ProseSchema.Problem.Basic
import ProseSchema.Proofs.LevelOrder

/-!
# Values reached through parts

A value is searched by going down through some of its parts, of which each kind of search has its own. Main
statement: what is found is what the values that are reached have of their own, and where names are distinct
nothing is found twice.
-/

namespace ProseSchema

namespace Json

/-! Parts of values. -/

lemma sizeOf_part_lt {value : Json} {part : LocationStep × Json} (h : part ∈ value.parts) :
    sizeOf part.2 < sizeOf value := by
  cases value with
  | object members =>
    obtain ⟨member, hm, rfl⟩ := List.mem_map.mp h
    have hs := List.sizeOf_lt_of_mem hm
    obtain ⟨name, inner⟩ := member
    simp only [object.sizeOf_spec, Prod.mk.sizeOf_spec] at hs ⊢
    omega
  | array elements =>
    obtain ⟨element, he, rfl⟩ := List.mem_map.mp h
    have hs := List.sizeOf_lt_of_mem (List.fst_mem_of_mem_zipIdx he)
    simp only [array.sizeOf_spec]
    omega
  | _ => exact absurd h List.not_mem_nil

/-- What holds of a value whenever it holds of its parts holds of all values. -/
theorem induction_parts {motive : Json → Prop} (h : ∀ value, (∀ part ∈ value.parts, motive part.2) → motive value)
    (value : Json) : motive value :=
  h value fun part _ => induction_parts h part.2
termination_by sizeOf value
decreasing_by exact sizeOf_part_lt ‹_›

lemma KeysDistinct.part {value : Json} (h : value.KeysDistinct) {part : LocationStep × Json}
    (hp : part ∈ value.parts) : part.2.KeysDistinct := by
  obtain ⟨_, inside⟩ := h
  apply inside
  cases value with
  | object members =>
    obtain ⟨member, hm, rfl⟩ := List.mem_map.mp hp
    exact List.mem_map_of_mem hm
  | array elements =>
    obtain ⟨element, he, rfl⟩ := List.mem_map.mp hp
    exact List.fst_mem_of_mem_zipIdx he
  | _ => exact absurd hp List.not_mem_nil

lemma KeysDistinct.nodup_parts {value : Json} (h : value.KeysDistinct) : (value.parts.map Prod.fst).Nodup := by
  cases value with
  | object members =>
    have hk := ((keysDistinct_object_iff members).mp h).1
    have hm : (object members).parts.map Prod.fst = (members.map Prod.fst).map LocationStep.key := by
      simp [parts]
    rw [hm]
    exact hk.map fun _ _ he => LocationStep.key.inj he
  | array elements =>
    have hm : (array elements).parts.map Prod.fst = (elements.zipIdx.map Prod.snd).map LocationStep.index := by
      rw [parts, List.map_map, List.map_map]
      rfl
    rw [hm, List.zipIdx_map_snd]
    exact List.Nodup.map (fun _ _ he => LocationStep.index.inj he) List.nodup_range'
  | _ => exact List.nodup_nil

end Json

/-- Such parts lead from one value to another, and from its place to the place of the other. -/
inductive ReachedBy (parts : Json → List (LocationStep × Json)) (place : Location) (value : Json) :
    Location → Json → Prop
  | here : ReachedBy parts place value place value
  | into {there : Location} {inner : Json} {part : LocationStep × Json} :
      ReachedBy parts place value there inner → part ∈ parts inner →
      ReachedBy parts place value (there.step part.1) part.2

namespace ReachedBy

variable {parts : Json → List (LocationStep × Json)} {place there beyond : Location} {value inner deepest : Json}

lemma trans (h : ReachedBy parts place value there inner) (hi : ReachedBy parts there inner beyond deepest) :
    ReachedBy parts place value beyond deepest := by
  induction hi with
  | here => exact h
  | into _ hp ih => exact ih.into hp

lemma steps_prefix (h : ReachedBy parts place value there inner) : place.steps <+: there.steps := by
  induction h with
  | here => exact List.prefix_rfl
  | into _ _ ih => exact ih.trans (List.prefix_append _ _)

/-- What is reached through one part of a value is not reached through another one. -/
lemma step_unique {step other : LocationStep} {value' inner' : Json}
    (h : ReachedBy parts (place.step step) value there inner)
    (ho : ReachedBy parts (place.step other) value' there inner') : step = other := by
  obtain ⟨u, hu⟩ := h.steps_prefix
  obtain ⟨v, hv⟩ := ho.steps_prefix
  rw [← hv] at hu
  simpa [Location.step] using congrArg (·[place.steps.length]?) hu

lemma place_ne {step : LocationStep} (h : ReachedBy parts (place.step step) value there inner) : place ≠ there := by
  rintro rfl
  have hl := h.steps_prefix.length_le
  rw [Location.step, List.length_append, List.length_singleton] at hl
  omega

end ReachedBy

/-- What is found in a value is its own problems, which tell its place, and what is found in its parts. -/
structure Collects (found own : Location → Json → List Problem) (parts : Json → List (LocationStep × Json)) :
    Prop where
  perm : ∀ place value, (found place value).Perm
    (own place value ++ (parts value).flatMap fun part => found (place.step part.1) part.2)
  inside : ∀ {value part}, part ∈ parts value → part ∈ value.parts
  nodup_parts : ∀ {value}, value.KeysDistinct → ((parts value).map Prod.fst).Nodup
  nodup_own : ∀ {place value}, value.KeysDistinct → (own place value).Nodup
  place_unique : ∀ {place place' value value' p}, p ∈ own place value → p ∈ own place' value' → place = place'

namespace Collects

variable {found own : Location → Json → List Problem} {parts : Json → List (LocationStep × Json)}
  (h : Collects found own parts)

include h

lemma mem_of_reaches {place there : Location} {value inner : Json} (hr : ReachedBy parts place value there inner)
    {p : Problem} (hp : p ∈ found there inner) : p ∈ found place value := by
  induction hr with
  | here => exact hp
  | into _ hpart ih =>
    exact ih ((h.perm _ _).mem_iff.mpr (List.mem_append_right _ (List.mem_flatMap.mpr ⟨_, hpart, hp⟩)))

/-- What is found in a value are the own problems of the values that are reached from it. -/
theorem mem_iff {place : Location} {value : Json} {p : Problem} :
    p ∈ found place value ↔ ∃ there inner, ReachedBy parts place value there inner ∧ p ∈ own there inner := by
  constructor
  · intro hp
    induction value using Json.induction_parts generalizing place with
    | h value ih =>
    rcases List.mem_append.mp ((h.perm place value).mem_iff.mp hp) with hp | hp
    · exact ⟨place, value, .here, hp⟩
    · obtain ⟨part, hpart, hp⟩ := List.mem_flatMap.mp hp
      obtain ⟨there, inner, hr, ho⟩ := ih part (h.inside hpart) hp
      exact ⟨there, inner, (ReachedBy.here.into hpart).trans hr, ho⟩
  · rintro ⟨there, inner, hr, ho⟩
    exact h.mem_of_reaches hr ((h.perm there inner).mem_iff.mpr (List.mem_append_left _ ho))

/-- Where names are distinct, nothing is found twice. -/
theorem nodup {place : Location} {value : Json} (hd : value.KeysDistinct) : (found place value).Nodup := by
  induction value using Json.induction_parts generalizing place with
  | h value ih =>
  rw [(h.perm place value).nodup_iff, List.nodup_append']
  refine ⟨h.nodup_own hd, List.nodup_flatMap.mpr ⟨?_, ?_⟩, ?_⟩
  · intro part hpart
    exact ih part (h.inside hpart) (hd.part (h.inside hpart))
  · refine (List.pairwise_map.mp (h.nodup_parts hd)).imp ?_
    intro part other hne p hp ho
    obtain ⟨there, inner, hr, hown⟩ := h.mem_iff.mp hp
    obtain ⟨there', inner', hr', hown'⟩ := h.mem_iff.mp ho
    obtain rfl := h.place_unique hown hown'
    exact hne (hr.step_unique hr')
  · intro p hown hp
    obtain ⟨part, hpart, hp⟩ := List.mem_flatMap.mp hp
    obtain ⟨there, inner, hr, hown'⟩ := h.mem_iff.mp hp
    exact hr.place_ne (h.place_unique hown hown')

end Collects

end ProseSchema
