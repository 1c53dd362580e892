import ProseSchema.Proofs.LevelOrder
import ProseSchema.Proofs.VisitedObjects

/-!
# Values and their places

The items that are checked and the objects that are visited stand where their locations say. Two values can have
locations with the same text only where some key has a dot or an opening bracket.
-/

namespace ProseSchema

lemma Json.at?_append (steps later : List LocationStep) (value : Json) :
    value.at? (steps ++ later) = (value.at? steps).bind (Json.at? later) := by
  induction steps generalizing value with
  | nil => rfl
  | cons step steps ih =>
    cases step <;> cases value <;> simp only [List.cons_append, at?, Option.bind_none, Option.bind_assoc]
    · congr 1
      funext inner
      exact ih inner
    · congr 1
      funext inner
      exact ih inner

/-- The value stands at the place in the document, whose own place is named by the root. -/
structure FoundAt (document : Json) (root : String) (place : Location) (value : Json) : Prop where
  root_eq : place.root = root
  at_eq : document.at? place.steps = some value
  distinct : value.KeysDistinct

namespace FoundAt

variable {document : Json} {root : String} {place : Location} {value : Json}

lemma ofRoot (h : document.KeysDistinct) : FoundAt document root (.ofRoot root) document :=
  ⟨rfl, rfl, h⟩

lemma step (h : FoundAt document root place value) (last : LocationStep) {inner : Json}
    (hs : value.at? [last] = some inner) (hd : inner.KeysDistinct) :
    FoundAt document root (place.step last) inner := by
  refine ⟨h.root_eq, ?_, hd⟩
  rw [Location.step, Json.at?_append, h.at_eq]
  exact hs

lemma keys_nodup {members : List (String × Json)} (h : FoundAt document root place (.object members)) :
    (members.map Prod.fst).Nodup := by
  obtain ⟨keys, _⟩ := h.distinct
  exact keys

/-- The value of a member stands one step further on. -/
lemma member {members : List (String × Json)} (h : FoundAt document root place (.object members))
    {name : String} {inner : Json} (hm : (name, inner) ∈ members) :
    FoundAt document root (place.key name) inner := by
  have hk := h.keys_nodup
  obtain ⟨_, inside⟩ := h.distinct
  refine h.step (.key name) ?_ (inside inner (List.mem_map_of_mem hm))
  rw [Json.at?, (Json.lookup_eq_some_iff hk).mpr hm]
  rfl

lemma field (h : FoundAt document root place value) {name : String} {inner : Json}
    (hf : value.get? name = some inner) : FoundAt document root (place.key name) inner := by
  cases value with
  | object members => exact h.member (Json.mem_of_lookup hf)
  | _ => simp [Json.get?] at hf

lemma element {elements : List Json} (h : FoundAt document root place (.array elements)) {i : Nat}
    {inner : Json} (hi : elements[i]? = some inner) : FoundAt document root (place.index i) inner := by
  obtain ⟨_, inside⟩ := h.distinct
  refine h.step (.index i) ?_ (inside inner (List.mem_of_getElem? hi))
  rw [Json.at?, hi]
  rfl

lemma part (h : FoundAt document root place value) {part : LocationStep × Json} (hp : part ∈ value.parts) :
    FoundAt document root (place.step part.1) part.2 := by
  cases value with
  | object members =>
    obtain ⟨member, hm, rfl⟩ := List.mem_map.mp hp
    exact h.member hm
  | array elements =>
    obtain ⟨element, he, rfl⟩ := List.mem_map.mp hp
    exact h.element (List.mem_zipIdx_iff_getElem?.mp he)
  | _ => simp [Json.parts] at hp

end FoundAt

/-- What an item gives rise to stands where it says, if the item does. -/
lemma Item.foundAt_of_mem_next {t : RuleTables} {document : Json} {root : String} {item inner : Item}
    (h : FoundAt document root item.place item.node) (hi : inner ∈ item.next t) :
    FoundAt document root inner.place inner.node := by
  rw [Item.next_eq_below, List.mem_flatMap] at hi
  obtain ⟨member, hm, hi⟩ := hi
  have hmember : FoundAt document root (item.place.step (.key member.1)) member.2 := by
    obtain ⟨node, place, roles⟩ := item
    cases node with
    | object members => exact h.member hm
    | _ => simp [Json.members] at hm
  rw [Item.below, List.mem_append] at hi
  rcases hi with hi | hi
  · split at hi
    · simp at hi
    · obtain rfl := List.mem_singleton.mp hi
      exact hmember
  · split at hi
    · simp at hi
    · obtain ⟨part, hp, rfl⟩ := List.mem_map.mp hi
      exact hmember.part hp

/-- The objects on the trail of a visited object stand where they say. -/
lemma StatesLanguage.Visited.foundAt {document : Json} {root : String} {trail : Trail}
    (h : Visited document (.ofRoot root) trail) (hd : document.KeysDistinct) :
    ∀ site ∈ trail, FoundAt document root site.place (.object site.members) := by
  obtain ⟨members, rfl, hr⟩ := h
  induction hr with
  | refl =>
    rw [List.forall_mem_singleton]
    exact .ofRoot hd
  | tail _ hi ih =>
    cases hi with
    | member hm => exact List.forall_mem_cons.mpr ⟨(ih _ List.mem_cons_self).member hm, ih⟩
    | element hm hi => exact List.forall_mem_cons.mpr ⟨((ih _ List.mem_cons_self).member hm).element hi, ih⟩

/-! The text of a location. -/

/-- The characters that open a step in the text of a location. -/
def opensStep (c : Char) : Bool :=
  c = '.' || c = '['

/-- In the value and in all that is inside it, no key has a character that opens a step. -/
inductive Json.KeysPlain : Json → Prop
  | intro {value : Json} (keys : ∀ member ∈ value.members, ∀ c ∈ member.1.toList, opensStep c = false)
    (inside : ∀ inner ∈ value.contents, KeysPlain inner) : KeysPlain value

lemma Json.keysPlain_object_iff (members : List (String × Json)) :
    (object members).KeysPlain ↔
      ∀ member ∈ members, (∀ c ∈ member.1.toList, opensStep c = false) ∧ member.2.KeysPlain := by
  constructor
  · rintro ⟨keys, inside⟩ member hm
    exact ⟨keys member hm, inside _ (List.mem_map_of_mem hm)⟩
  · intro h
    exact ⟨fun member hm => (h member hm).1, List.forall_mem_map.mpr fun member hm => (h member hm).2⟩

lemma Json.keysPlain_string (text : String) : (string text).KeysPlain :=
  ⟨List.forall_mem_nil _, List.forall_mem_nil _⟩

namespace LocationStep

/-- The text of the step holds no character that opens a step but the first one. -/
def Plain (step : LocationStep) : Prop :=
  ∀ c ∈ step.text.toList.tail, opensStep c = false

lemma plain_index (i : Nat) : (index i).Plain := by
  intro c hc
  have ht : (index i).text.toList.tail = Nat.toDigits 10 i ++ [']'] := by
    simp [text, Nat.toString_eq_repr, Nat.toList_repr]
  rw [ht, List.mem_append, List.mem_singleton] at hc
  rcases hc with hc | rfl
  · have hdigit := Nat.isDigit_of_mem_toDigits (by decide) (by decide) hc
    rw [opensStep, Bool.or_eq_false_iff, decide_eq_false_iff_not, decide_eq_false_iff_not]
    constructor <;> rintro rfl <;> exact absurd hdigit (by decide)
  · decide

lemma text_injective {step other : LocationStep} (h : step.text = other.text) : step = other := by
  have hl := congrArg String.toList h
  cases step with
  | key name =>
    cases other with
    | key name' =>
      have hn : name.toList = name'.toList := by simpa [text] using hl
      rw [String.toList_inj.mp hn]
    | index j => simp [text] at hl
  | index i =>
    cases other with
    | key name' => simp [text] at hl
    | index j =>
      have hd : Nat.toDigits 10 i = Nat.toDigits 10 j := by
        simpa [text, Nat.toString_eq_repr, Nat.toList_repr] using hl
      have hn := congrArg (Nat.ofDigitChars 10 · 0) hd
      simp only [Nat.ofDigitChars_toDigits (b := 10) (by decide) (by decide)] at hn
      rw [hn]

lemma exists_text (step : LocationStep) : ∃ c body, step.text.toList = c :: body ∧ opensStep c = true := by
  cases step with
  | key name => exact ⟨'.', name.toList, by simp [text], rfl⟩
  | index i => exact ⟨'[', (i.repr ++ "]").toList, by simp [text, Nat.toString_eq_repr], rfl⟩

end LocationStep

/-- The text of some steps, as locations show it. -/
def stepsText (steps : List LocationStep) : List Char :=
  steps.flatMap fun step => step.text.toList

lemma Location.toList_text (place : Location) :
    place.text.toList = place.root.toList ++ stepsText place.steps := by
  simp [text, stepsText, List.flatMap_map]

/-- Behind a step the text is at an end or another step opens. -/
lemma opensStep_stepsText (steps : List LocationStep) :
    ∀ c ∈ (stepsText steps).head?, opensStep c = true := by
  cases steps with
  | nil => simp [stepsText]
  | cons step steps =>
    obtain ⟨c, body, hs, hc⟩ := step.exists_text
    simp [stepsText, hs, hc]

lemma takeWhile_text_append {body : List Char} (h : ∀ c ∈ body, opensStep c = false)
    (steps : List LocationStep) :
    (body ++ stepsText steps).takeWhile (fun c => !opensStep c) = body := by
  rw [List.takeWhile_append_of_pos fun c hc => by rw [h c hc]; rfl]
  cases ht : stepsText steps with
  | nil => simp
  | cons c rest =>
    have hc := opensStep_stepsText steps c (by simp [ht])
    simp [hc]

/-- Plain steps are told by their text. -/
lemma stepsText_injective {steps others : List LocationStep} (hs : ∀ step ∈ steps, step.Plain)
    (ho : ∀ step ∈ others, step.Plain) (h : stepsText steps = stepsText others) : steps = others := by
  induction steps generalizing others with
  | nil =>
    cases others with
    | nil => rfl
    | cons other others =>
      obtain ⟨c, body, hc, _⟩ := other.exists_text
      simp [stepsText, hc] at h
  | cons step steps ih =>
    obtain ⟨c, body, hc, _⟩ := step.exists_text
    cases others with
    | nil => simp [stepsText, hc] at h
    | cons other others =>
      obtain ⟨d, body', hd, _⟩ := other.exists_text
      rw [List.forall_mem_cons] at hs ho
      have hbody : ∀ c ∈ body, opensStep c = false := by simpa [LocationStep.Plain, hc] using hs.1
      have hbody' : ∀ c ∈ body', opensStep c = false := by simpa [LocationStep.Plain, hd] using ho.1
      have hcons : c :: (body ++ stepsText steps) = d :: (body' ++ stepsText others) := by
        simpa [stepsText, hc, hd] using h
      obtain ⟨rfl, hrest⟩ := List.cons_eq_cons.mp hcons
      -- A step ends where the next one opens, so its text and what is behind it are the same on both sides.
      have hb : body = body' := by
        rw [← takeWhile_text_append hbody steps, hrest, takeWhile_text_append hbody' others]
      subst hb
      have hstep : step = other := LocationStep.text_injective (String.toList_inj.mp (hc.trans hd.symm))
      rw [hstep, ih hs.2 ho.2 (List.append_cancel_left hrest)]

/-- The steps to a value in a document with plain keys are plain. -/
lemma plain_of_at? {document value : Json} (hp : document.KeysPlain) {steps : List LocationStep}
    (h : document.at? steps = some value) : ∀ step ∈ steps, step.Plain := by
  induction steps generalizing document with
  | nil => simp
  | cons step steps ih =>
    obtain ⟨keys, inside⟩ := hp
    cases step with
    | key name =>
      cases document with
      | object members =>
        obtain ⟨inner, hl, ha⟩ := Option.bind_eq_some_iff.mp h
        have hm := Json.mem_of_lookup hl
        have hname : (LocationStep.key name).Plain := by
          simpa [LocationStep.Plain, LocationStep.text] using keys _ hm
        exact List.forall_mem_cons.mpr ⟨hname, ih (inside inner (List.mem_map_of_mem hm)) ha⟩
      | _ => simp [Json.at?] at h
    | index i =>
      cases document with
      | array elements =>
        obtain ⟨inner, hl, ha⟩ := Option.bind_eq_some_iff.mp h
        have hinner := inside inner (List.mem_of_getElem? hl)
        exact List.forall_mem_cons.mpr ⟨LocationStep.plain_index i, ih hinner ha⟩
      | _ => simp [Json.at?] at h

/-- In a document with plain keys the text of the steps to a value leads to no other value. -/
lemma steps_eq_of_text_eq {document value other : Json} (hp : document.KeysPlain)
    {steps others : List LocationStep} (hs : document.at? steps = some value)
    (ho : document.at? others = some other) (h : stepsText steps = stepsText others) : steps = others :=
  stepsText_injective (plain_of_at? hp hs) (plain_of_at? hp ho) h

end ProseSchema
