import ProseSchema.Json.Lemmas
import ProseSchema.Json.Read

/-!
# Merged keys

An object may be written with one key several times. The members that are read have distinct names all the same,
and a name has the value that was written for it last.
-/

namespace ProseSchema

namespace Json

/-! One member more. -/

lemma lookup_cons_eq_ite (name other : String) (value : Json) (members : List (String × Json)) :
    ((other, value) :: members).lookup name = if name = other then some value else members.lookup name := by
  rw [List.lookup_cons]
  by_cases h : name = other
  · simp [h]
  · rw [beq_false_of_ne h, if_neg h]

lemma insertMember_keys (name : String) (value : Json) (members : List (String × Json)) :
    (insertMember name value members).map Prod.fst =
      if name ∈ members.map Prod.fst then members.map Prod.fst else members.map Prod.fst ++ [name] := by
  induction members with
  | nil => rfl
  | cons member members ih =>
    obtain ⟨other, old⟩ := member
    rw [insertMember]
    by_cases h : other = name
    · subst h
      simp
    · rw [if_neg h, List.map_cons, ih]
      simp only [List.map_cons, List.mem_cons, Ne.symm h, false_or]
      split <;> rfl

lemma nodup_insertMember {members : List (String × Json)} (h : (members.map Prod.fst).Nodup) (name : String)
    (value : Json) : ((insertMember name value members).map Prod.fst).Nodup := by
  rw [insertMember_keys]
  split
  · exact h
  · next hn =>
    have hne : ∀ other ∈ members.map Prod.fst, ∀ new ∈ [name], other ≠ new := by
      rintro other ho new hnew rfl
      exact hn (List.mem_singleton.mp hnew ▸ ho)
    exact List.nodup_append.mpr ⟨h, List.pairwise_singleton _ name, hne⟩

lemma mem_insertMember {name : String} {value : Json} {members : List (String × Json)}
    {member : String × Json} (h : member ∈ insertMember name value members) :
    member = (name, value) ∨ member ∈ members := by
  induction members with
  | nil => exact .inl (List.mem_singleton.mp h)
  | cons first members ih =>
    rw [insertMember] at h
    split at h
    · exact (List.mem_cons.mp h).imp_right (List.mem_cons_of_mem first)
    · rcases List.mem_cons.mp h with rfl | h
      · exact .inr List.mem_cons_self
      · exact (ih h).imp_right (List.mem_cons_of_mem first)

lemma lookup_insertMember (name other : String) (value : Json) (members : List (String × Json)) :
    (insertMember name value members).lookup other =
      if other = name then some value else members.lookup other := by
  induction members with
  | nil => exact lookup_cons_eq_ite other name value []
  | cons member members ih =>
    obtain ⟨first, old⟩ := member
    rw [insertMember, lookup_cons_eq_ite other first]
    by_cases hf : first = name
    · rw [if_pos hf, lookup_cons_eq_ite, hf]
      split <;> rfl
    · rw [if_neg hf, lookup_cons_eq_ite, ih]
      by_cases h : other = first
      · rw [if_pos h, if_pos h, if_neg (h ▸ hf)]
      · rw [if_neg h, if_neg h]

/-! All members. -/

/-- Of several values under one key the last one is found. -/
theorem lookup_mergedMembers (name : String) (before members : List (String × Json)) :
    (mergedMembers before members).lookup name =
      ((members.reverse.lookup name).map merged).or (before.lookup name) := by
  induction members generalizing before with
  | nil => simp [mergedMembers]
  | cons member members ih =>
    obtain ⟨other, value⟩ := member
    rw [mergedMembers, ih, lookup_insertMember, List.reverse_cons, List.lookup_append, lookup_cons_eq_ite]
    cases members.reverse.lookup name with
    | some last => rfl
    | none => by_cases h : name = other <;> simp [h]

mutual

theorem keysDistinct_merged : (value : Json) → value.merged.KeysDistinct
  | .null => ⟨List.nodup_nil, List.forall_mem_nil _⟩
  | .bool _ => ⟨List.nodup_nil, List.forall_mem_nil _⟩
  | .number _ => ⟨List.nodup_nil, List.forall_mem_nil _⟩
  | .string text => keysDistinct_string text
  | .array elements => ⟨List.nodup_nil, keysDistinct_mergedElements elements⟩
  | .object members => (keysDistinct_object_iff _).mpr
      (keysDistinct_mergedMembers members ⟨List.nodup_nil, List.forall_mem_nil _⟩)

theorem keysDistinct_mergedElements :
    (elements : List Json) → ∀ element ∈ mergedElements elements, element.KeysDistinct
  | [] => List.forall_mem_nil _
  | element :: elements =>
    List.forall_mem_cons.mpr ⟨keysDistinct_merged element, keysDistinct_mergedElements elements⟩

theorem keysDistinct_mergedMembers {before : List (String × Json)} : (members : List (String × Json)) →
    (before.map Prod.fst).Nodup ∧ (∀ member ∈ before, member.2.KeysDistinct) →
    ((mergedMembers before members).map Prod.fst).Nodup ∧
      ∀ member ∈ mergedMembers before members, member.2.KeysDistinct
  | [], h => h
  | (name, value) :: members, h => by
    rw [mergedMembers]
    refine keysDistinct_mergedMembers members ⟨nodup_insertMember h.1 name _, ?_⟩
    intro member hm
    rcases mem_insertMember hm with rfl | hm
    · exact keysDistinct_merged value
    · exact h.2 member hm

end

/-- Whatever is read, no object in it has two members of one name. -/
theorem keysDistinct_of_parse? {text : String} {value : Json} (h : parse? text = some value) :
    value.KeysDistinct := by
  obtain ⟨written, -, rfl⟩ := Option.map_eq_some_iff.mp h
  exact keysDistinct_merged written

end Json

end ProseSchema
