import Mathlib.Tactic.Lemma
import ProseSchema.Json.Type

/-!
# What is found in a value

Fields, members and elements of values in terms of the constructors, and the decision whether two values are
equal, member by member in their order.
-/

namespace ProseSchema

namespace Json

/-- The node is an object with a field of that name. -/
def Has (node : Json) (name : String) : Prop :=
  ∃ value, node.get? name = some value

def members : Json → List (String × Json)
  | .object members => members
  | _ => []

/-- The values of the members of an object, or the elements of an array. -/
def contents : Json → List Json
  | .object members => members.map Prod.snd
  | .array elements => elements
  | _ => []

/-- In the value and in all that is inside it, no object has two members of one name. -/
inductive KeysDistinct : Json → Prop
  | intro {value : Json} (keys : (value.members.map Prod.fst).Nodup)
    (inside : ∀ inner ∈ value.contents, KeysDistinct inner) : KeysDistinct value

lemma keysDistinct_object_iff (members : List (String × Json)) :
    (object members).KeysDistinct ↔
      (members.map Prod.fst).Nodup ∧ ∀ member ∈ members, member.2.KeysDistinct := by
  constructor
  · rintro ⟨keys, inside⟩
    exact ⟨keys, fun member hm => inside _ (List.mem_map_of_mem hm)⟩
  · rintro ⟨keys, inside⟩
    exact ⟨keys, List.forall_mem_map.mpr inside⟩

lemma keysDistinct_string (text : String) : (string text).KeysDistinct :=
  ⟨List.nodup_nil, List.forall_mem_nil _⟩

lemma mem_of_lookup {members : List (String × Json)} {name : String} {value : Json}
    (h : members.lookup name = some value) : (name, value) ∈ members := by
  obtain ⟨before, after, rfl, _⟩ := List.lookup_eq_some_iff.mp h
  exact List.mem_append_right _ List.mem_cons_self

lemma isSome_lookup_iff {β : Type} {pairs : List (String × β)} {name : String} :
    (pairs.lookup name).isSome = true ↔ name ∈ pairs.map Prod.fst := by
  rw [List.lookup_isSome_iff, List.mem_map]
  exact exists_congr fun pair => and_congr_right fun _ => beq_iff_eq.trans eq_comm

lemma lookup_isSome_of_mem {members : List (String × Json)} {name : String} {value : Json}
    (h : (name, value) ∈ members) : (members.lookup name).isSome = true :=
  isSome_lookup_iff.mpr (List.mem_map.mpr ⟨(name, value), h, rfl⟩)

/-- Where names are distinct, each member is the one found under its name. -/
lemma lookup_eq_some_iff {members : List (String × Json)} (h : (members.map Prod.fst).Nodup) {name : String}
    {value : Json} : members.lookup name = some value ↔ (name, value) ∈ members := by
  refine ⟨mem_of_lookup, ?_⟩
  intro hm
  obtain ⟨before, after, rfl⟩ := List.append_of_mem hm
  rw [List.map_append, List.nodup_append] at h
  have hb : before.lookup name = none := by
    rw [List.lookup_eq_none_iff]
    intro member hmem
    have hne := h.2.2 _ (List.mem_map_of_mem hmem) name List.mem_cons_self
    simpa using Ne.symm hne
  rw [List.lookup_append, hb, List.lookup_cons_self]
  rfl

@[simp] lemma hasField_iff (node : Json) (name : String) : node.hasField name = true ↔ node.Has name := by
  rw [hasField, Option.isSome_iff_exists, Has]

instance (node : Json) (name : String) : Decidable (node.Has name) :=
  decidable_of_iff _ (hasField_iff node name)

lemma hasType_object_iff (node : Json) :
    node.hasType .object = true ↔ ∃ members, node = .object members := by
  cases node <;> simp [hasType]

lemma hasType_array_iff (node : Json) :
    node.hasType .array = true ↔ ∃ elements, node = .array elements := by
  cases node <;> simp [hasType]

lemma hasType_string_iff (node : Json) :
    node.hasType .string = true ↔ ∃ text, node = .string text := by
  cases node <;> simp [hasType]

lemma isNull_iff (value : Json) : value.isNull = true ↔ value = .null := by
  cases value <;> simp [isNull]

lemma string?_eq_some_iff (value : Json) (text : String) :
    value.string? = some text ↔ value = .string text := by
  cases value <;> simp [string?]

lemma array?_eq_some_iff (value : Json) (elements : List Json) :
    value.array? = some elements ↔ value = .array elements := by
  cases value <;> simp [array?]

lemma object?_eq_some_iff (value : Json) (members : List (String × Json)) :
    value.object? = some members ↔ value = .object members := by
  cases value <;> simp [object?]

mutual

def same : Json → Json → Bool
  | .null, .null => true
  | .bool a, .bool b => a = b
  | .number a, .number b => a = b
  | .string a, .string b => a = b
  | .array a, .array b => sameElements a b
  | .object a, .object b => sameMembers a b
  | _, _ => false

def sameElements : List Json → List Json → Bool
  | [], [] => true
  | a :: as, b :: bs => same a b && sameElements as bs
  | _, _ => false

def sameMembers : List (String × Json) → List (String × Json) → Bool
  | [], [] => true
  | (name, a) :: as, (other, b) :: bs => name = other && same a b && sameMembers as bs
  | _, _ => false

end

mutual

theorem same_iff (a b : Json) : same a b = true ↔ a = b := by
  cases a <;> cases b <;> simp [same, sameElements_iff, sameMembers_iff]

theorem sameElements_iff (as bs : List Json) : sameElements as bs = true ↔ as = bs := by
  cases as <;> cases bs <;> simp [sameElements, same_iff, sameElements_iff]

theorem sameMembers_iff (as bs : List (String × Json)) : sameMembers as bs = true ↔ as = bs := by
  match as, bs with
  | [], [] => simp [sameMembers]
  | [], _ :: _ => simp [sameMembers]
  | _ :: _, [] => simp [sameMembers]
  | (name, a) :: as, (other, b) :: bs => simp [sameMembers, same_iff a b, sameMembers_iff as bs]

end

instance : DecidableEq Json := fun a b =>
  decidable_of_decidable_of_iff (same_iff a b)

end Json

end ProseSchema
