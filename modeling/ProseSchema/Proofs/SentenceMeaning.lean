import Mathlib.Logic.Basic
import ProseSchema.Proofs.Conforms

/-!
# The meaning of constraint sentences

What a constraint sentence says of an object, read from its clauses and not from the entries it leaves in the
tables. The constraints that it enters apply to the nodes that it does not exclude, and an object that keeps all of
them is as the sentence says.
-/

namespace ProseSchema

/-- The place of a number in the order stands in the relation to that of the bound. -/
def Relation.Relates (relation : Relation) (x bound : Int) : Prop :=
  match relation with
  | equalTo => x = bound
  | greaterThan => bound < x
  | lessThan => x < bound
  | greaterThanOrEqualTo => bound ≤ x
  | lessThanOrEqualTo => x ≤ bound

def Sign.Admits (sign : Sign) (x : Binary64) : Prop :=
  match sign with
  | positive => 0 < x.rank
  | negative => x.rank < 0
  | nonnegative => 0 ≤ x.rank

namespace TypePhrase

/-- A sign is put on the values of an array, where it would bound the array itself. -/
def IsSignedArray (phrase : TypePhrase) : Prop :=
  phrase.arrangement ≠ .single ∧ phrase.base.sign? ≠ none

instance : DecidablePred IsSignedArray := fun _ =>
  inferInstanceAs (Decidable (_ ∧ _))

/-- The value is as the type phrase says. -/
def Admits (phrase : TypePhrase) (value : Json) : Prop :=
  (value = .null ∧ phrase.nullable = true) ∨
  (value ≠ .null ∧
    match phrase.arrangement with
    | .array nonempty => ∃ elements, value = .array elements ∧ (nonempty = true → elements ≠ []) ∧
        ∀ element ∈ elements, element.hasType phrase.base.toJsonType = true
    | .single => value.hasType phrase.base.toJsonType = true ∧
        ∀ sign, phrase.base.sign? = some sign →
          ∃ number, value = .number number ∧ sign.Admits number.toBinary64)

end TypePhrase

/-- The value is as the predicate says; a relation says nothing of what is not a number. -/
def Predicate.Admits (value : Json) : Predicate → Prop
  | relation r target => ∀ number, value = .number number →
      ∃ bound, (Literal.ofToken target).toBinary64? = some bound ∧
        r.Relates number.toBinary64.rank bound.rank
  | oneOf values => ∃ text ∈ values, (Literal.ofToken text).holds value = true

namespace ConstraintSentence

/-- The value of one of the fields is as the sentence says. -/
structure Admits (s : ConstraintSentence) (value : Json) : Prop where
  type : ∀ phrase, s.type = some phrase → phrase.Admits value
  predicate : ∀ predicate, s.predicate = some predicate → predicate.Admits value

/-- The node is as the sentence says. -/
structure HoldsOf (s : ConstraintSentence) (node : Json) : Prop where
  required : s.modal = .must → ∃ name ∈ s.fields.names, node.Has name
  forbidden : s.modal = .mustNot → ∀ name ∈ s.fields.names, ¬node.Has name
  fields : ∀ name ∈ s.fields.names, ∀ value, node.get? name = some value → s.Admits value

/-- The tables afterwards hold the constraints of the tables before and, behind those of the role of the
sentence, some that mean what the sentence says. -/
structure Adds (s : ConstraintSentence) (before after : RuleTables) (added : List Constraint) : Prop where
  own : after.constraintsOf s.role = before.constraintsOf s.role ++ added
  others : ∀ role ≠ s.role, after.constraintsOf role = before.constraintsOf role
  excluded : ∀ played, (∃ role ∈ played, role ∈ s.excluded) → ∀ c ∈ added, c.applies played = false
  applied : ∀ played, (∀ role ∈ played, role ∉ s.excluded) → ∀ c ∈ added, c.applies played = true
  meaning : ∀ members place,
    (∀ c ∈ added, c.requirement.problems (.object members) place = []) ↔ s.HoldsOf (.object members)

end ConstraintSentence

lemma Range.contains_only_iff (relation : Relation) (bound x : Binary64) :
    (Range.only relation bound).Contains x ↔ relation.Relates x.rank bound.rank := by
  constructor
  · rintro ⟨h1, h2, h3, h4, h5⟩
    cases relation with
    | equalTo => exact h1 bound rfl
    | greaterThan => exact h2 bound rfl
    | lessThan => exact h4 bound rfl
    | greaterThanOrEqualTo => exact h3 bound rfl
    | lessThanOrEqualTo => exact h5 bound rfl
  · intro h
    cases relation <;> constructor <;> simp_all [Range.only, Relation.Relates]

lemma rank_ofInt_zero : (Binary64.ofInt 0).rank = 0 := by
  decide +kernel

lemma Sign.contains_range_iff (sign : Sign) (x : Binary64) : sign.range.Contains x ↔ sign.Admits x := by
  cases sign <;> rw [Sign.range, Range.contains_only_iff, rank_ofInt_zero] <;> rfl

/-- Values of the type of a number are numbers. -/
lemma NumberType.exists_number (type : NumberType) {value : Json}
    (h : value.hasType type.toJsonType = true) : ∃ number, value = .number number := by
  cases value with
  | number number => exact ⟨number, rfl⟩
  | _ => cases type <;> simp [NumberType.toJsonType, Json.hasType] at h

namespace TypePhrase

lemma satisfied_array_iff (nullable nonempty : Bool) {base : BaseType} (hb : base.sign? = none) (field : String)
    (node : Json) :
    (∀ r ∈ requirements ⟨nullable, .array nonempty, base⟩ field, r.Satisfied node) ↔
      ∀ value, node.get? field = some value → Admits ⟨nullable, .array nonempty, base⟩ value := by
  have hr : requirements ⟨nullable, .array nonempty, base⟩ field =
      (if nonempty then [.nonEmptyArray field] else []) ++
        [.fieldType field base.toJsonType true nullable] := by
    cases nonempty <;> simp [requirements, hb]
  have hn : (∀ r ∈ (if nonempty then [Requirement.nonEmptyArray field] else []), r.Satisfied node) ↔
      (nonempty = true → node.get? field ≠ some (.array [])) := by
    cases nonempty <;> simp [Requirement.Satisfied]
  rw [hr, List.forall_mem_append, hn, List.forall_mem_singleton]
  simp only [Requirement.Satisfied, Admits, if_true]
  constructor
  · rintro ⟨hne, ht⟩ value hv
    rcases ht value hv with h | ⟨h, elements, rfl, he⟩
    · exact .inl h
    · refine .inr ⟨h, elements, rfl, ?_, he⟩
      rintro hne' rfl
      exact hne hne' hv
  · intro h
    constructor
    · intro hne hv
      rcases h _ hv with ⟨hn, _⟩ | ⟨_, elements, he, hl, _⟩
      · exact absurd hn (by simp)
      · exact hl hne (Json.array.inj he).symm
    · intro value hv
      rcases h value hv with hn | ⟨hn, elements, rfl, _, he⟩
      · exact .inl hn
      · exact .inr ⟨hn, elements, rfl, he⟩

lemma satisfied_signed_iff (nullable : Bool) (sign : Sign) (type : NumberType) (field : String) (node : Json) :
    (∀ r ∈ requirements ⟨nullable, .single, .signed sign type⟩ field, r.Satisfied node) ↔
      ∀ value, node.get? field = some value → Admits ⟨nullable, .single, .signed sign type⟩ value := by
  have hr : requirements ⟨nullable, .single, .signed sign type⟩ field =
      [.fieldRange field sign.range, .fieldType field type.toJsonType false nullable] := rfl
  simp only [hr, List.forall_mem_cons, List.not_mem_nil, false_imp_iff, implies_true, and_true,
    Requirement.Satisfied, Sign.contains_range_iff, Admits, BaseType.sign?, BaseType.toJsonType,
    Option.some.injEq, forall_eq', Bool.false_eq_true, if_false]
  constructor
  · rintro ⟨hb, ht⟩ value hv
    rcases ht value hv with h | ⟨h, htype⟩
    · exact .inl h
    · obtain ⟨number, rfl⟩ := type.exists_number htype
      exact .inr ⟨h, htype, number, rfl, hb number hv⟩
  · intro h
    constructor
    · intro number hv
      rcases h _ hv with ⟨hn, _⟩ | ⟨_, _, other, ho, hb⟩
      · exact absurd hn (by simp)
      · rwa [Json.number.inj ho]
    · intro value hv
      rcases h value hv with hn | ⟨hn, ht, _⟩
      · exact .inl hn
      · exact .inr ⟨hn, ht⟩

/-- The requirements of a type phrase mean what the phrase says, where it puts no sign on an array. -/
lemma satisfied_requirements_iff (phrase : TypePhrase) (hs : ¬phrase.IsSignedArray) (field : String)
    (node : Json) :
    (∀ r ∈ phrase.requirements field, r.Satisfied node) ↔
      ∀ value, node.get? field = some value → phrase.Admits value := by
  obtain ⟨nullable, arrangement, base⟩ := phrase
  cases arrangement with
  | array nonempty =>
    have hb : base.sign? = none := by simpa [IsSignedArray] using hs
    exact satisfied_array_iff nullable nonempty hb field node
  | single =>
    cases base with
    | plain type => simp [requirements, Requirement.Satisfied, Admits, BaseType.sign?]
    | signed sign type => exact satisfied_signed_iff nullable sign type field node

end TypePhrase

/-- The requirement of a predicate means what the predicate says. -/
lemma Predicate.satisfied_requirement_iff {predicate : Predicate} {field : String} {line : Nat}
    {r : Requirement} (h : predicate.requirement field line = .ok r) (node : Json) :
    r.Satisfied node ↔ ∀ value, node.get? field = some value → predicate.Admits value := by
  cases predicate with
  | relation relation target =>
    cases hb : (Literal.ofToken target).toBinary64? with
    | none => simp [requirement, hb] at h
    | some bound =>
      obtain rfl : Requirement.fieldRange field (.only relation bound) = r := by
        simpa [requirement, hb] using h
      simp only [Requirement.Satisfied, Range.contains_only_iff, Admits, hb, Option.some.injEq,
        exists_eq_left']
      constructor
      · rintro h value hv number rfl
        exact h number hv
      · intro h number hv
        exact h _ hv number rfl
  | oneOf values =>
    obtain rfl : Requirement.fieldAmong field (values.map Literal.ofToken) = r := by
      simpa [requirement] using h
    simp only [Requirement.Satisfied, Admits, List.mem_map, exists_exists_and_eq_and]

/-- Where a computation goes through a list, each of the results is that of its element. -/
lemma forall_mem_mapM_iff {α β ε : Type} {f : α → Except ε β} {l : List α} {results : List β}
    (h : l.mapM f = .ok results) {P : β → Prop} :
    (∀ b ∈ results, P b) ↔ ∀ a ∈ l, ∃ b, f a = .ok b ∧ P b := by
  induction l generalizing results with
  | nil =>
    obtain rfl : [] = results := by simpa [pure, Except.pure] using h
    simp
  | cons a l ih =>
    rw [List.mapM_cons] at h
    cases ha : f a with
    | error e => simp [ha, bind, Except.bind] at h
    | ok b =>
      cases hl : l.mapM f with
      | error e => simp [ha, hl, bind, Except.bind] at h
      | ok bs =>
        obtain rfl : b :: bs = results := by
          simpa [ha, hl, bind, Except.bind, pure, Except.pure] using h
        simp [ha, ih hl]

lemma mem_of_mapM {α β ε : Type} {f : α → Except ε β} {l : List α} {results : List β}
    (h : l.mapM f = .ok results) {a : α} (ha : a ∈ l) : ∃ b ∈ results, f a = .ok b := by
  have hall := (forall_mem_mapM_iff h (P := (· ∈ results))).mp fun _ hb => hb
  obtain ⟨b, hb, hm⟩ := hall a ha
  exact ⟨b, hm, hb⟩

namespace ConstraintSentence

variable {s : ConstraintSentence} {line : Nat}

/-- What is required of one field comes from the predicate and then from the type. -/
lemma fieldRequirements_eq_ok {field : String} {rs : List Requirement}
    (h : s.fieldRequirements line field = .ok rs) :
    ∃ bounds types, rs = bounds ++ types ∧
      (∀ predicate, s.predicate = some predicate →
        ∃ r, predicate.requirement field line = .ok r ∧ bounds = [r]) ∧
      (s.predicate = none → bounds = []) ∧
      (∀ phrase, s.type = some phrase → types = phrase.requirements field) ∧
      (s.type = none → types = []) := by
  cases hp : s.predicate with
  | none =>
    cases ht : s.type with
    | none =>
      obtain rfl : [] = rs := by
        simpa [fieldRequirements, hp, ht, bind, Except.bind, pure, Except.pure] using h
      exact ⟨[], [], rfl, by simp⟩
    | some phrase =>
      obtain rfl : phrase.requirements field = rs := by
        simpa [fieldRequirements, hp, ht, bind, Except.bind, pure, Except.pure] using h
      exact ⟨[], phrase.requirements field, rfl, by simp⟩
  | some predicate =>
    cases hr : predicate.requirement field line with
    | error e => simp [fieldRequirements, hp, hr, bind, Except.bind, Functor.map, Except.map] at h
    | ok r =>
      cases ht : s.type with
      | none =>
        obtain rfl : [r] = rs := by
          simpa [fieldRequirements, hp, ht, hr, bind, Except.bind, pure, Except.pure, Functor.map,
            Except.map] using h
        exact ⟨[r], [], rfl, by simp [hr]⟩
      | some phrase =>
        obtain rfl : r :: phrase.requirements field = rs := by
          simpa [fieldRequirements, hp, ht, hr, bind, Except.bind, pure, Except.pure, Functor.map,
            Except.map] using h
        exact ⟨[r], phrase.requirements field, rfl, by simp [hr]⟩

/-- What is required of one field means what the sentence says of its value. -/
lemma satisfied_fieldRequirements_iff (hs : ∀ phrase, s.type = some phrase → ¬phrase.IsSignedArray)
    {field : String} {rs : List Requirement} (h : s.fieldRequirements line field = .ok rs) (node : Json) :
    (∀ r ∈ rs, r.Satisfied node) ↔ ∀ value, node.get? field = some value → s.Admits value := by
  obtain ⟨bounds, types, rfl, hsome, hnone, htsome, htnone⟩ := fieldRequirements_eq_ok h
  have hpredicate : (∀ r ∈ bounds, r.Satisfied node) ↔ ∀ value, node.get? field = some value →
      ∀ predicate, s.predicate = some predicate → predicate.Admits value := by
    cases hp : s.predicate with
    | none => simp [hnone hp]
    | some predicate =>
      obtain ⟨r, hr, rfl⟩ := hsome predicate hp
      simpa using predicate.satisfied_requirement_iff hr node
  have htype : (∀ r ∈ types, r.Satisfied node) ↔ ∀ value, node.get? field = some value →
      ∀ phrase, s.type = some phrase → phrase.Admits value := by
    cases ht : s.type with
    | none => simp [htnone ht]
    | some phrase => simpa [htsome phrase ht] using phrase.satisfied_requirements_iff (hs phrase ht) field node
  rw [List.forall_mem_append, hpredicate, htype]
  constructor
  · rintro ⟨hp, ht⟩ value hv
    exact ⟨ht value hv, hp value hv⟩
  · intro h
    exact ⟨fun value hv => (h value hv).predicate, fun value hv => (h value hv).type⟩

lemma satisfied_modalRequirements_iff (members : List (String × Json)) :
    (∀ r ∈ s.modalRequirements, r.Satisfied (.object members)) ↔
      (s.modal = .must → ∃ name ∈ s.fields.names, Json.Has (.object members) name) ∧
      (s.modal = .mustNot → ∀ name ∈ s.fields.names, ¬Json.Has (.object members) name) := by
  unfold modalRequirements
  cases s.modal <;> simp [Requirement.Satisfied]

/-- All that is required together means what the sentence says of an object. -/
lemma satisfied_requirements_iff (hs : ∀ phrase, s.type = some phrase → ¬phrase.IsSignedArray)
    {rs : List Requirement} (h : s.requirements line = .ok rs) (members : List (String × Json)) :
    (∀ r ∈ rs, r.Satisfied (.object members)) ↔ s.HoldsOf (.object members) := by
  cases hm : s.fields.names.mapM (s.fieldRequirements line) with
  | error e => simp [requirements, hm, bind, Except.bind] at h
  | ok ofFields =>
    obtain rfl : ofFields.flatten ++ s.modalRequirements = rs := by
      simpa [requirements, hm, bind, Except.bind, pure, Except.pure] using h
    have hf : (∀ r ∈ ofFields.flatten, r.Satisfied (.object members)) ↔
        ∀ name ∈ s.fields.names, ∀ value, Json.get? name (.object members) = some value →
          s.Admits value := by
      have hall : ∀ name ∈ s.fields.names, ∃ rs, s.fieldRequirements line name = .ok rs ∧ True :=
        (forall_mem_mapM_iff hm (P := fun _ => True)).mp fun _ _ => trivial
      rw [List.forall_mem_flatten, forall_mem_mapM_iff hm]
      apply forall₂_congr
      intro name hn
      obtain ⟨rs, hr, _⟩ := hall name hn
      simp only [hr, Except.ok.injEq, exists_eq_left', satisfied_fieldRequirements_iff hs hr]
    rw [List.forall_mem_append, hf, satisfied_modalRequirements_iff]
    constructor
    · rintro ⟨hfields, hrequired, hforbidden⟩
      exact ⟨hrequired, hforbidden, hfields⟩
    · rintro ⟨hrequired, hforbidden, hfields⟩
      exact ⟨hfields, hrequired, hforbidden⟩

end ConstraintSentence

namespace RuleTables

/-- Entries of the other kinds leave the constraints alone. -/
lemma constraintsOf_insertAll_of_ne (t : RuleTables) {entries : List Entry}
    (h : ∀ entry ∈ entries, ∀ role constraint, entry ≠ .constraint role constraint) (role : String) :
    (t.insertAll entries).constraintsOf role = t.constraintsOf role := by
  induction entries generalizing t with
  | nil => rfl
  | cons entry entries ih =>
    rw [List.forall_mem_cons] at h
    have he : (t.insert entry).constraintsOf role = t.constraintsOf role := by
      cases entry with
      | constraint role constraint => exact absurd rfl (h.1 role constraint)
      | _ => rfl
    rw [insertAll, List.foldl_cons, ← he]
    exact ih _ h.2

lemma constraintsOf_insertAll_constraints (t : RuleTables) (role : String) (added : List Constraint)
    (other : String) :
    (t.insertAll (added.map (.constraint role))).constraintsOf other =
      t.constraintsOf other ++ if other = role then added else [] := by
  induction added generalizing t with
  | nil => simp [insertAll]
  | cons constraint added ih =>
    rw [List.map_cons, insertAll, List.foldl_cons]
    refine (ih _).trans ?_
    by_cases h : other = role
    · subst h
      simp [constraintsOf, insert]
    · have h' : ¬role = other := fun he => h he.symm
      simp [constraintsOf, insert, h, h']

end RuleTables

namespace ConstraintSentence

lemma childEntries_ne_constraint (s : ConstraintSentence) :
    ∀ entry ∈ s.childEntries, ∀ role constraint, entry ≠ .constraint role constraint := by
  unfold childEntries
  rintro entry he role constraint rfl
  split at he
  · simp at he
  · simp at he
  · split at he <;> simp at he
  · simp at he

lemma constraintsOf_entriesFor (s : ConstraintSentence) (rs : List Requirement) (t : RuleTables)
    (role : String) :
    (t.insertAll (s.entriesFor rs)).constraintsOf role = t.constraintsOf role ++
      if role = s.role then rs.map fun r => (Constraint.of r).exclude s.excluded else [] := by
  have hm : (rs.map fun r => Entry.constraint s.role ((Constraint.of r).exclude s.excluded)) =
      (rs.map fun r => (Constraint.of r).exclude s.excluded).map (.constraint s.role) := by
    rw [List.map_map]
    rfl
  rw [entriesFor, hm, RuleTables.insertAll_append, RuleTables.insertAll_append,
    RuleTables.constraintsOf_insertAll_of_ne _ s.childEntries_ne_constraint,
    RuleTables.constraintsOf_insertAll_constraints, RuleTables.constraintsOf_insertAll_of_ne]
  simp

lemma exclude_requirement (r : Requirement) (excluded : List String) :
    ((Constraint.of r).exclude excluded).requirement = r := by
  unfold Constraint.exclude
  split <;> rfl

lemma applies_exclude_iff (r : Requirement) (excluded played : List String) :
    ((Constraint.of r).exclude excluded).applies played = true ↔ ∀ role ∈ played, role ∉ excluded := by
  rw [Constraint.applies_iff]
  by_cases he : excluded = []
  · subst he
    simp [Constraint.exclude, Constraint.of]
  · simp only [Constraint.exclude, Constraint.of, List.isEmpty_iff, he, if_false, List.nil_append,
      List.mem_singleton, forall_eq]
    constructor
    · intro h role hp hx
      exact h role hx hp
    · intro h role hx hp
      exact h role hp hx

/-- A sentence that is entered adds to its role constraints that mean what it says, and it adds no others.
They are put to exactly the nodes that play no excluded role, and an object has no problem with them exactly
when the fields that are required are there, those that are forbidden are not, and the values of those that
are there have the type and meet the predicate. -/
theorem enter_adds_meaning {s : ConstraintSentence} {line : Nat} {t after : RuleTables}
    {roles : List String} (h : s.enter line t = (.ok roles, after))
    (hs : ∀ phrase, s.type = some phrase → ¬phrase.IsSignedArray) :
    ∃ added, s.Adds t after added := by
  cases hr : s.requirements line with
  | error e => simp [enter, hr] at h
  | ok rs =>
    obtain ⟨_, rfl⟩ : s.newRoles = roles ∧ t.insertAll (s.entriesFor rs) = after := by
      simpa [enter, hr] using h
    refine ⟨rs.map fun r => (Constraint.of r).exclude s.excluded, ?_, ?_, ?_, ?_, ?_⟩
    · rw [constraintsOf_entriesFor, if_pos rfl]
    · intro role hne
      rw [constraintsOf_entriesFor, if_neg hne, List.append_nil]
    · rintro played ⟨role, hp, hx⟩
      rw [List.forall_mem_map]
      intro r _
      rw [← Bool.not_eq_true, applies_exclude_iff]
      intro hn
      exact hn role hp hx
    · intro played hn
      rw [List.forall_mem_map]
      intro r _
      exact (applies_exclude_iff r s.excluded played).mpr hn
    · intro members place
      simp only [List.forall_mem_map, exclude_requirement, Requirement.problems_eq_nil_iff]
      exact satisfied_requirements_iff hs hr members

/-- A retrier that is not a catcher has to have one of two fields, null or a positive integer up to 99. -/
def retrierSentence : ConstraintSentence where
  role := "Retrier"
  excluded := ["Catcher"]
  modal := .must
  type := some ⟨true, .single, .signed .positive .integer⟩
  fields := .oneOf ["Times", "Count"]
  predicate := some (.relation .lessThanOrEqualTo "99")
  child := none

def handlerTables : RuleTables :=
  RuleTables.insertAll {} [.constraint "Retrier" (.of (.hasField ["ErrorEquals"])),
    .constraint "Catcher" (.of (.hasField ["Next"]))]

theorem retrierSentence_adds_meaning :
    (retrierSentence.enter 3 handlerTables).1 = .ok [] ∧
    ¬TypePhrase.IsSignedArray ⟨true, .single, .signed .positive .integer⟩ ∧
    ∃ added, retrierSentence.Adds handlerTables (retrierSentence.enter 3 handlerTables).2 added := by
  have h : (retrierSentence.enter 3 handlerTables).1 = .ok [] := by rfl
  have hs : ¬TypePhrase.IsSignedArray ⟨true, .single, .signed .positive .integer⟩ := by decide
  refine ⟨h, hs, enter_adds_meaning (Prod.ext h rfl) ?_⟩
  intro phrase hp
  rwa [← Option.some.inj hp]

end ConstraintSentence

end ProseSchema
