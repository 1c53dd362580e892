import ProseSchema.Proofs.Numerals
import ProseSchema.Proofs.SentenceMeaning

/-!
# Relations between integers

A sentence that relates a field to an integer compares the two by what they are rounded to. As rounding keeps the
order, it can only make the two equal: a relation that allows for that is then kept where it does not hold, and a
strict one is broken where it does. If one of the two is small, neither happens.
-/

namespace ProseSchema

namespace Relation

/-- Equal numbers are in the relation. -/
def AllowsEqual (relation : Relation) : Prop :=
  relation = equalTo ∨ relation = greaterThanOrEqualTo ∨ relation = lessThanOrEqualTo

instance : DecidablePred AllowsEqual := fun _ =>
  inferInstanceAs (Decidable (_ ∨ _))

variable {relation : Relation} {v t : Int}

lemma holds_iff (x bound : Binary64) : relation.holds x bound = true ↔ relation.Relates x.rank bound.rank := by
  cases relation <;> exact decide_eq_true_iff

/-- What is in a relation that allows for equal numbers is so after rounding. -/
lemma relates_rank (hr : relation.AllowsEqual) (h : relation.Relates v t) :
    relation.Relates (Binary64.ofInt v).rank (Binary64.ofInt t).rank := by
  rcases hr with rfl | rfl | rfl
  · rw [show v = t from h]
    rfl
  · exact Binary64.rank_ofInt_mono h
  · exact Binary64.rank_ofInt_mono h

/-- What is in a relation that does not allow for equal numbers after rounding was so before. -/
lemma relates_of_relates_rank (hr : ¬relation.AllowsEqual)
    (h : relation.Relates (Binary64.ofInt v).rank (Binary64.ofInt t).rank) : relation.Relates v t := by
  cases relation with
  | greaterThan => exact lt_of_not_ge fun hle => not_lt_of_ge (Binary64.rank_ofInt_mono hle) h
  | lessThan => exact lt_of_not_ge fun hle => not_lt_of_ge (Binary64.rank_ofInt_mono hle) h
  | _ => exact absurd hr (by decide)

/-- Where one of the two integers is told apart from all others, nothing is lost. -/
lemma relates_rank_iff (h : Binary64.IsToldApart v.natAbs ∨ Binary64.IsToldApart t.natAbs) :
    relation.Relates (Binary64.ofInt v).rank (Binary64.ofInt t).rank ↔ relation.Relates v t := by
  have heq : (Binary64.ofInt v).rank = (Binary64.ofInt t).rank ↔ v = t := by
    refine ⟨fun he => ?_, fun he => he ▸ rfl⟩
    rcases h with hv | ht
    · exact (Binary64.eq_of_rank_ofInt_eq hv he.symm).symm
    · exact Binary64.eq_of_rank_ofInt_eq ht he
  have hle : (Binary64.ofInt v).rank ≤ (Binary64.ofInt t).rank ↔ v ≤ t := by
    refine ⟨fun hle => ?_, Binary64.rank_ofInt_mono⟩
    by_contra hlt
    exact hlt (heq.mp (le_antisymm hle (Binary64.rank_ofInt_mono (le_of_not_ge hlt)))).le
  have hge : (Binary64.ofInt t).rank ≤ (Binary64.ofInt v).rank ↔ t ≤ v := by
    refine ⟨fun hle => ?_, Binary64.rank_ofInt_mono⟩
    by_contra hlt
    exact hlt (heq.mp (le_antisymm (Binary64.rank_ofInt_mono (le_of_not_ge hlt)) hle)).ge
  cases relation with
  | equalTo => exact heq
  | greaterThan => exact lt_iff_lt_of_le_iff_le hle
  | lessThan => exact lt_iff_lt_of_le_iff_le hge
  | greaterThanOrEqualTo => exact hge
  | lessThanOrEqualTo => exact hle

end Relation

/-- A single bound has a problem with a number exactly if the number is not in the relation. -/
lemma Requirement.problems_fieldRange_only {field : String} {node : Json} {number : Number}
    (hv : node.get? field = some (.number number)) (relation : Relation) (bound : Binary64) (place : Location) :
    (Requirement.fieldRange field (.only relation bound)).problems node place =
      if relation.holds number.toBinary64 bound then []
      else [.outOfRange place field (.number number) relation bound] := by
  have hbounds : (Range.only relation bound).bounds = [(relation, bound)] := by cases relation <;> rfl
  rw [problems, hv]
  simp only [rangeProblems, hbounds]
  cases h : relation.holds number.toBinary64 bound <;> simp [h]

namespace ConstraintSentence

variable {s : ConstraintSentence} {relation : Relation} {target : String} {bound : Binary64}

lemma fieldRequirements_of_relation (hs : s.predicate = some (.relation relation target))
    (hb : (Literal.ofToken target).toBinary64? = some bound) (line : Nat) (field : String) :
    ∃ types, s.fieldRequirements line field = .ok (.fieldRange field (.only relation bound) :: types) := by
  have hr : Predicate.requirement (.relation relation target) field line =
      .ok (.fieldRange field (.only relation bound)) := by
    rw [Predicate.requirement, hb]
  refine ⟨s.type.toList.flatMap (·.requirements field), ?_⟩
  cases ht : s.type <;>
    simp [fieldRequirements, hs, ht, hr, bind, Except.bind, pure, Except.pure, Functor.map, Except.map]

/-- A computation that succeeds for each element of a list succeeds for the list. -/
lemma exists_mapM_eq_ok {α β ε : Type} {f : α → Except ε β} {l : List α} (h : ∀ a ∈ l, ∃ b, f a = .ok b) :
    ∃ results, l.mapM f = .ok results := by
  induction l with
  | nil => exact ⟨[], rfl⟩
  | cons a l ih =>
    rw [List.forall_mem_cons] at h
    obtain ⟨⟨b, hb⟩, hl⟩ := h
    obtain ⟨results, hr⟩ := ih hl
    exact ⟨b :: results, by rw [List.mapM_cons, hb, hr]; rfl⟩

/-- A sentence that relates its fields to a number is entered, and with it a bound for each field. -/
lemma enter_of_relation (hs : s.predicate = some (.relation relation target))
    (hb : (Literal.ofToken target).toBinary64? = some bound) (line : Nat) (t : RuleTables) :
    ∃ after, s.enter line t = (.ok s.newRoles, after) ∧ ∀ field ∈ s.fields.names,
      (Constraint.of (.fieldRange field (.only relation bound))).exclude s.excluded ∈ after.constraintsOf s.role := by
  obtain ⟨ofFields, hm⟩ : ∃ ofFields, s.fields.names.mapM (s.fieldRequirements line) = .ok ofFields := by
    refine exists_mapM_eq_ok fun field _ => ?_
    obtain ⟨types, htypes⟩ := fieldRequirements_of_relation hs hb line field
    exact ⟨_, htypes⟩
  have hr : s.requirements line = .ok (ofFields.flatten ++ s.modalRequirements) := by
    simp [requirements, hm, bind, Except.bind, pure, Except.pure]
  refine ⟨_, by rw [enter, hr], fun field hf => ?_⟩
  obtain ⟨ofField, hmem, hfield⟩ := mem_of_mapM hm hf
  obtain ⟨types, htypes⟩ := fieldRequirements_of_relation hs hb line field
  obtain rfl := Except.ok.inj (hfield.symm.trans htypes)
  have hrequired : Requirement.fieldRange field (.only relation bound) ∈ ofFields.flatten ++ s.modalRequirements :=
    List.mem_append_left _ (List.mem_flatten.mpr ⟨_, hmem, List.mem_cons_self⟩)
  rw [constraintsOf_entriesFor, if_pos rfl]
  exact List.mem_append_right _ (List.mem_map_of_mem hrequired)

/-- A sentence that relates its fields to an integer of any length is entered, and with it one bound for each
field. On an integer in the field, the bound has no problem with what is in a relation that allows for equal
numbers, and it reports what is not in a relation that does not. It reports just what is not in the relation
where one of the two integers is told apart from all others by rounding, as it is up to the fifty-third power
of two. -/
theorem relation_errs_on_one_side (hs : s.predicate = some (.relation relation target)) {t : Int}
    (ht : Literal.WritesInteger target t) (line : Nat) (before : RuleTables) :
    ∃ after, s.enter line before = (.ok s.newRoles, after) ∧ ∀ field ∈ s.fields.names,
      ∃ c ∈ after.constraintsOf s.role, c = (Constraint.of (.fieldRange field
          (.only relation (.ofInt t)))).exclude s.excluded ∧
        ∀ node v place, node.get? field = some (.number (.integer v)) →
          (relation.AllowsEqual → relation.Relates v t → c.requirement.problems node place = []) ∧
          (¬relation.AllowsEqual → ¬relation.Relates v t → c.requirement.problems node place =
            [.outOfRange place field (.number (.integer v)) relation (.ofInt t)]) ∧
          (Binary64.IsToldApart v.natAbs ∨ Binary64.IsToldApart t.natAbs →
            (c.requirement.problems node place = [] ↔ relation.Relates v t)) := by
  obtain ⟨after, henter, hbounds⟩ := enter_of_relation hs (Literal.toBinary64?_ofToken ht) line before
  refine ⟨after, henter, fun field hf => ⟨_, hbounds field hf, rfl, fun node v place hv => ?_⟩⟩
  have hholds : relation.holds (Binary64.ofInt v) (Binary64.ofInt t) = true ↔
      relation.Relates (Binary64.ofInt v).rank (Binary64.ofInt t).rank := relation.holds_iff _ _
  have hproblems : ((Constraint.of (.fieldRange field (.only relation (.ofInt t)))).exclude
      s.excluded).requirement.problems node place = if relation.holds (Binary64.ofInt v) (Binary64.ofInt t) then []
        else [.outOfRange place field (.number (.integer v)) relation (.ofInt t)] := by
    rw [exclude_requirement, Requirement.problems_fieldRange_only hv, Number.toBinary64]
  rw [hproblems]
  refine ⟨fun hr h => ?_, fun hr h => ?_, fun hapart => ?_⟩
  · exact if_pos (hholds.mpr (Relation.relates_rank hr h))
  · exact if_neg fun h' => h (Relation.relates_of_relates_rank hr (hholds.mp h'))
  · rw [← Relation.relates_rank_iff hapart, ← hholds]
    split
    · next h => exact iff_of_true rfl h
    · next h => exact iff_of_false (by simp) h

/-- `A Part MAY have an integer field named "serial" whose value MUST be greater than -9007199254740993.` -/
def partSentence : ConstraintSentence where
  role := "Part"
  excluded := []
  modal := .may
  type := some ⟨false, .single, .plain .integer⟩
  fields := .single "serial"
  predicate := some (.relation .greaterThan "-9007199254740993")
  child := none

/-- The bound itself is reported, and a small number above it is not. -/
theorem partSentence_errs_on_one_side :
    Literal.WritesInteger "-9007199254740993" (-9007199254740993) ∧
    ∃ after, partSentence.enter 2 {} = (.ok [], after) ∧ ∃ c ∈ after.constraintsOf "Part", ∀ place,
      c.requirement.problems (.object [("serial", .number (.integer (-9007199254740993)))]) place =
        [.outOfRange place "serial" (.number (.integer (-9007199254740993))) .greaterThan
          (.ofInt (-9007199254740993))] ∧
      c.requirement.problems (.object [("serial", .number (.integer (-5)))]) place = [] := by
  have ht : Literal.WritesInteger "-9007199254740993" (-9007199254740993) :=
    ⟨true, "9007199254740993".toList, by decide, ⟨by decide, by simp⟩, by decide⟩
  obtain ⟨after, henter, hfields⟩ := relation_errs_on_one_side (s := partSentence) rfl ht 2 {}
  obtain ⟨c, hc, -, hnode⟩ := hfields "serial" (by decide)
  have hbound : ¬Relation.greaterThan.Relates (-9007199254740993) (-9007199254740993) := lt_irrefl _
  have hsmall : Relation.greaterThan.Relates (-5) (-9007199254740993) := by
    change (-9007199254740993 : Int) < -5
    omega
  refine ⟨ht, after, henter, c, hc, fun place => ⟨?_, ?_⟩⟩
  · exact (hnode _ _ place rfl).2.1 (by decide) hbound
  · exact ((hnode _ _ place rfl).2.2 (by decide)).mpr hsmall

end ConstraintSentence

end ProseSchema
