import Mathlib.Data.List.Forall2
import Mathlib.Data.Multiset.Bind
import ProseSchema.Literal
import ProseSchema.Json.Lemmas

/-!
# The order of members

Values that are equal up to the order of the members of their objects, and what is then the same about them.
Where keys are distinct, the same fields are present, with values that are again equal up to order.
-/

namespace ProseSchema

/-- Two members of one name whose values are related. -/
inductive SameName (related : Json → Json → Prop) : String × Json → String × Json → Prop
  | intro (name : String) {a b : Json} (h : related a b) : SameName related (name, a) (name, b)

namespace SameName

variable {related : Json → Json → Prop} {m n : String × Json}

lemma name_eq (h : SameName related m n) : m.1 = n.1 := by
  cases h
  rfl

lemma value (h : SameName related m n) : related m.2 n.2 := by
  cases h
  assumption

end SameName

namespace Json

/-- The values are equal up to the order of the members of objects, at every depth. -/
inductive Reordered : Json → Json → Prop
  | null : Reordered .null .null
  | bool (value : Bool) : Reordered (.bool value) (.bool value)
  | number (value : Number) : Reordered (.number value) (.number value)
  | string (text : String) : Reordered (.string text) (.string text)
  | array {as bs : List Json} (h : List.Forall₂ Reordered as bs) : Reordered (.array as) (.array bs)
  | object {ms ns : List (String × Json)}
    (h : Multiset.Rel (SameName Reordered) (ms : Multiset (String × Json)) (ns : Multiset (String × Json))) :
    Reordered (.object ms) (.object ns)

end Json

lemma rel_of_forall₂ {α β : Type} {related : α → β → Prop} {as : List α} {bs : List β}
    (h : List.Forall₂ related as bs) : Multiset.Rel related (as : Multiset α) (bs : Multiset β) := by
  induction h with
  | nil => exact .zero
  | cons hab _ ih => exact .cons hab ih

lemma exists_mem_iff_of_rel {α β : Type} {related : α → β → Prop} {as : List α} {bs : List β}
    (h : Multiset.Rel related (as : Multiset α) (bs : Multiset β)) {p : α → Prop} {q : β → Prop}
    (hpq : ∀ a b, related a b → (p a ↔ q b)) : (∃ a ∈ as, p a) ↔ ∃ b ∈ bs, q b := by
  constructor
  · rintro ⟨a, ha, hp⟩
    obtain ⟨b, hb, hab⟩ := Multiset.exists_mem_of_rel_of_mem h ha
    exact ⟨b, hb, (hpq a b hab).mp hp⟩
  · rintro ⟨b, hb, hq⟩
    obtain ⟨a, ha, hab⟩ := Multiset.exists_mem_of_rel_of_mem (Multiset.rel_flip.mpr h) hb
    exact ⟨a, ha, (hpq a b hab).mpr hq⟩

lemma rel_flatMap {α β γ δ : Type} {related : α → β → Prop} {after : γ → δ → Prop} {as : List α}
    {bs : List β} {f : α → List γ} {g : β → List δ}
    (h : Multiset.Rel related (as : Multiset α) (bs : Multiset β))
    (hfg : ∀ a b, related a b → Multiset.Rel after (f a : Multiset γ) (g b : Multiset δ)) :
    Multiset.Rel after (as.flatMap f : Multiset γ) (bs.flatMap g : Multiset δ) := by
  rw [← Multiset.coe_bind, ← Multiset.coe_bind]
  exact Multiset.rel_bind (fun a b hab => hfg a b hab) h

lemma rel_map {α β γ δ : Type} {related : α → β → Prop} {after : γ → δ → Prop} {as : List α}
    {bs : List β} {f : α → γ} {g : β → δ} (h : Multiset.Rel related (as : Multiset α) (bs : Multiset β))
    (hfg : ∀ a b, related a b → after (f a) (g b)) :
    Multiset.Rel after (as.map f : Multiset γ) (bs.map g : Multiset δ) := by
  rw [← Multiset.map_coe, ← Multiset.map_coe, Multiset.rel_map]
  exact h.mono fun a _ b _ hab => hfg a b hab

lemma rel_append {α β : Type} {related : α → β → Prop} {as as' : List α} {bs bs' : List β}
    (h : Multiset.Rel related (as : Multiset α) (bs : Multiset β))
    (h' : Multiset.Rel related (as' : Multiset α) (bs' : Multiset β)) :
    Multiset.Rel related ((as ++ as' : List α) : Multiset α) ((bs ++ bs' : List β) : Multiset β) := by
  rw [← Multiset.coe_add, ← Multiset.coe_add]
  exact h.add h'

lemma rel_filter {α β : Type} {related : α → β → Prop} {as : List α} {bs : List β} {p : α → Bool}
    {q : β → Bool} (h : Multiset.Rel related (as : Multiset α) (bs : Multiset β))
    (hpq : ∀ a b, related a b → p a = q b) :
    Multiset.Rel related (as.filter p : Multiset α) (bs.filter q : Multiset β) := by
  have hf {s : Multiset α} {t : Multiset β} (h : Multiset.Rel related s t) :
      Multiset.Rel related (s.filter (p ·)) (t.filter (q ·)) := by
    induction h with
    | zero => exact .zero
    | @cons a b s t hab _ ih =>
      have he := hpq a b hab
      by_cases hp : p a = true
      · have hq : q b = true := he ▸ hp
        simpa [hp, hq] using Multiset.Rel.cons hab ih
      · have hq : ¬q b = true := he ▸ hp
        simpa [hp, hq] using ih
  simpa using hf h

/-- Members of one name each have one list of names, up to order. -/
lemma names_perm {related : Json → Json → Prop} {ms ns : List (String × Json)}
    (h : Multiset.Rel (SameName related) (ms : Multiset (String × Json)) (ns : Multiset (String × Json))) :
    (ms.map Prod.fst).Perm (ns.map Prod.fst) := by
  rw [← Multiset.coe_eq_coe, ← Multiset.rel_eq]
  apply rel_map h
  rintro _ _ ⟨name, _⟩
  rfl

namespace Json

/-- Where names are distinct, members of one name each are found under the same names. -/
lemma lookup_of_rel {related : Json → Json → Prop} {ms ns : List (String × Json)}
    (ha : (ms.map Prod.fst).Nodup) (hb : (ns.map Prod.fst).Nodup)
    (h : Multiset.Rel (SameName related) (ms : Multiset (String × Json)) (ns : Multiset (String × Json)))
    (name : String) :
    ms.lookup name = none ∧ ns.lookup name = none ∨
      ∃ a b, ms.lookup name = some a ∧ ns.lookup name = some b ∧ related a b := by
  cases hl : ms.lookup name with
  | some a =>
    obtain ⟨_, hn, hmn⟩ := Multiset.exists_mem_of_rel_of_mem h ((lookup_eq_some_iff ha).mp hl)
    cases hmn with
    | intro _ hv => exact .inr ⟨a, _, rfl, (lookup_eq_some_iff hb).mpr hn, hv⟩
  | none =>
    refine .inl ⟨rfl, ?_⟩
    rw [List.lookup_eq_none_iff] at hl ⊢
    intro n hn
    obtain ⟨m, hm, he⟩ := List.mem_map.mp ((names_perm h).mem_iff.mpr (List.mem_map_of_mem hn))
    rw [← he]
    exact hl m hm

mutual

theorem Reordered.refl (a : Json) : Reordered a a := by
  match a with
  | .null => exact .null
  | .bool value => exact .bool value
  | .number value => exact .number value
  | .string text => exact .string text
  | .array as => exact .array (elements_refl as)
  | .object ms => exact .object (members_refl ms)

theorem elements_refl (as : List Json) : List.Forall₂ Reordered as as := by
  match as with
  | [] => exact .nil
  | a :: as => exact .cons (.refl a) (elements_refl as)

theorem members_refl (ms : List (String × Json)) :
    Multiset.Rel (SameName Reordered) (ms : Multiset (String × Json)) (ms : Multiset (String × Json)) := by
  match ms with
  | [] => exact .zero
  | (name, a) :: ms => exact .cons (.intro name (.refl a)) (members_refl ms)

end

lemma Reordered.of_perm {ms ns : List (String × Json)} (h : ms.Perm ns) :
    Reordered (.object ms) (.object ns) := by
  apply Reordered.object
  rw [← Multiset.coe_eq_coe.mpr h]
  exact members_refl ms

lemma Reordered.keysDistinct {a b : Json} (h : Reordered a b) (ha : a.KeysDistinct) : b.KeysDistinct := by
  induction ha generalizing b with
  | intro keys inside ih =>
    cases h with
    | object h =>
      refine ⟨(names_perm h).nodup_iff.mp keys, List.forall_mem_map.mpr ?_⟩
      intro n hn
      obtain ⟨m, hm, hmn⟩ := Multiset.exists_mem_of_rel_of_mem (Multiset.rel_flip.mpr h) hn
      cases hmn with
      | intro name hv => exact ih _ (List.mem_map_of_mem hm) hv
    | array h =>
      refine ⟨List.nodup_nil, ?_⟩
      intro n hn
      obtain ⟨m, hm, hmn⟩ := Multiset.exists_mem_of_rel_of_mem (Multiset.rel_flip.mpr (rel_of_forall₂ h)) hn
      exact ih _ hm hmn
    | _ => exact ⟨List.nodup_nil, List.forall_mem_nil _⟩

/-- Values with distinct keys that are equal up to the order of members. -/
structure Alike (a b : Json) : Prop where
  reordered : Reordered a b
  left : a.KeysDistinct
  right : b.KeysDistinct

namespace Alike

lemma elements {as bs : List Json} (h : Alike (.array as) (.array bs)) : List.Forall₂ Alike as bs := by
  obtain ⟨hr, ⟨_, ha⟩, ⟨_, hb⟩⟩ := h
  cases hr with
  | array hr =>
    rw [contents] at ha hb
    clear * - hr ha hb
    induction hr with
    | nil => exact .nil
    | cons hab _ ih =>
      rw [List.forall_mem_cons] at ha hb
      exact .cons ⟨hab, ha.1, hb.1⟩ (ih ha.2 hb.2)

lemma members {ms ns : List (String × Json)} (h : Alike (.object ms) (.object ns)) :
    Multiset.Rel (SameName Alike) (ms : Multiset (String × Json)) (ns : Multiset (String × Json)) := by
  obtain ⟨hr, ⟨_, ha⟩, ⟨_, hb⟩⟩ := h
  cases hr with
  | object hr =>
    apply hr.mono
    rintro _ hm _ hn ⟨name, hv⟩
    exact .intro name ⟨hv, ha _ (List.mem_map_of_mem hm), hb _ (List.mem_map_of_mem hn)⟩

lemma names_nodup {ms ns : List (String × Json)} (h : Alike (.object ms) (.object ns)) :
    (ms.map Prod.fst).Nodup ∧ (ns.map Prod.fst).Nodup := by
  obtain ⟨_, ⟨ha, _⟩, ⟨hb, _⟩⟩ := h
  exact ⟨ha, hb⟩

/-- To show something of values that are alike it is enough to show it of what is inside them first. -/
theorem induction {motive : Json → Json → Prop}
    (scalar : ∀ a : Json, (∀ as, a ≠ .array as) → (∀ ms, a ≠ .object ms) → motive a a)
    (array : ∀ as bs : List Json, List.Forall₂ motive as bs → motive (.array as) (.array bs))
    (object : ∀ ms ns : List (String × Json), Alike (.object ms) (.object ns) →
      Multiset.Rel (SameName fun a b => Alike a b ∧ motive a b) (ms : Multiset (String × Json)) (ns : Multiset (String × Json)) →
      motive (.object ms) (.object ns))
    {a b : Json} (h : Alike a b) : motive a b := by
  have ha := h.left
  induction ha generalizing b with
  | @intro a _ _ ih =>
    cases h.reordered with
    | object =>
      apply object _ _ h
      apply h.members.mono
      rintro _ hm _ _ ⟨name, hv⟩
      exact .intro name ⟨hv, ih _ (List.mem_map_of_mem hm) hv⟩
    | array =>
      apply array
      have he := h.elements
      rw [contents] at ih
      clear * - he ih
      induction he with
      | nil => exact .nil
      | cons hab _ ih' =>
        rw [List.forall_mem_cons] at ih
        exact .cons (ih.1 hab) (ih' ih.2)
    | _ => exact scalar _ nofun nofun

variable {a b : Json} (h : Alike a b)

include h

/-- A field is missing in both values, or present in both with values that are alike. -/
lemma get? (name : String) :
    a.get? name = none ∧ b.get? name = none ∨
      ∃ v w, a.get? name = some v ∧ b.get? name = some w ∧ Alike v w := by
  cases h.reordered with
  | object => exact lookup_of_rel h.names_nodup.1 h.names_nodup.2 h.members name
  | _ => exact .inl ⟨rfl, rfl⟩

lemma hasField_eq (name : String) : a.hasField name = b.hasField name := by
  rcases h.get? name with ⟨ha, hb⟩ | ⟨v, w, ha, hb, _⟩ <;> rw [hasField, hasField, ha, hb]
  rfl

lemma isNull_eq : a.isNull = b.isNull := by
  cases h.reordered <;> rfl

lemma string?_eq : a.string? = b.string? := by
  cases h.reordered <;> rfl

lemma hasType_eq (type : JsonType) : a.hasType type = b.hasType type := by
  cases h.reordered <;> rfl

lemma types_eq : a.types = b.types := by
  simp only [types, h.hasType_eq]

lemma holds_eq (literal : Literal) : literal.holds a = literal.holds b := by
  cases literal <;> cases h.reordered <;> rfl

lemma array? : a.array? = none ∧ b.array? = none ∨
    ∃ as bs, a.array? = some as ∧ b.array? = some bs ∧ List.Forall₂ Alike as bs := by
  cases h.reordered with
  | array => exact .inr ⟨_, _, rfl, rfl, h.elements⟩
  | _ => exact .inl ⟨rfl, rfl⟩

/-- A field holds the same text in both values, or none in both. -/
lemma text_eq (name : String) : (a.get? name).bind Json.string? = (b.get? name).bind Json.string? := by
  rcases h.get? name with ⟨ha, hb⟩ | ⟨v, w, ha, hb, hv⟩
  · rw [ha, hb]
  · rw [ha, hb, Option.bind_some, Option.bind_some, hv.string?_eq]

end Alike

end Json

end ProseSchema
