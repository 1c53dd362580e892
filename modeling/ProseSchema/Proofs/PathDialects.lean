import Mathlib.Data.List.Chain
import ProseSchema.Proofs.PathText

/-!
# Path dialects

Paths are the root with any steps behind it, and reference paths the root with names behind it, each with at most
one index. They are read by readers of their own, yet the second are among the first: those without stars, colons
and commas, and without an index that stands behind no name.
-/

namespace ProseSchema

namespace PathStep

open Reader

/-- Does the step lead into a field with a name? -/
def isName : PathStep → Bool
  | .field .. => true
  | .bracketField _ => true
  | _ => false

/-- Does the step lead into an array? -/
def isIndex : PathStep → Bool
  | .indices .. => true
  | .anyIndex => true
  | .slice .. => true
  | _ => false

/-- A text is written for one step only. -/
theorem WrittenAs.unique {first second : PathStep} {u : List Char} (hf : first.WrittenAs u)
    (hs : second.WrittenAs u) : first = second := by
  have hread {written : PathStep} (h : written.WrittenAs u) :
      step.outcome (fun read _ => some read) (u ++ []) = some written :=
    outcome_step h (by simp) _
  rw [← Option.some_inj, ← hread hf, hread hs]

end PathStep

namespace Path

open PathStep Reader

/-- Does every step name a field, or follow one as its only index? -/
def isReference : List PathStep → Bool
  | [] => true
  | step :: .indices _ [] :: rest => step.isName && isReference rest
  | step :: rest => step.isName && isReference rest

/-- The text is a step. -/
def IsAtom (u : List Char) : Prop :=
  ∃ step : PathStep, step.WrittenAs u

/-- The text is a dotted name or a name in brackets. -/
def IsNameAtom (u : List Char) : Prop :=
  ∃ step : PathStep, step.isName = true ∧ step.WrittenAs u

/-- The text is an index of any kind. -/
def IsIndexAtom (u : List Char) : Prop :=
  ∃ step : PathStep, step.isIndex = true ∧ step.WrittenAs u

/-- The text is a single index. -/
def IsSingleIndex (u : List Char) : Prop :=
  ∃ digits, (PathStep.indices digits []).WrittenAs u

/-- The text is a name, with a single index behind it or nothing. -/
def IsReferenceStep (u : List Char) : Prop :=
  ∃ name index, IsNameAtom name ∧ (index = [] ∨ IsSingleIndex index) ∧ u = name ++ index

/-- The text has none of the characters that reference paths do without. -/
def IsPlain (u : List Char) : Prop :=
  ∀ c ∈ u, c ∉ ['*', ':', ',']

instance : DecidablePred IsPlain := fun u =>
  List.decidableBAll _ u

/-- No index stands at the start or directly behind another index. -/
def IndicesApart (us : List (List Char)) : Prop :=
  (∀ u ∈ us.head?, ¬IsIndexAtom u) ∧ us.IsChain fun u v => ¬(IsIndexAtom u ∧ IsIndexAtom v)

/-! The steps of a text. -/

lemma exists_forall₂_iff {α β : Type} {R : α → β → Prop} {bs : List β} :
    (∃ as, List.Forall₂ R as bs) ↔ ∀ b ∈ bs, ∃ a, R a b := by
  constructor
  · rintro ⟨as, h⟩
    induction h with
    | nil => exact List.forall_mem_nil _
    | cons h _ ih => exact List.forall_mem_cons.mpr ⟨⟨_, h⟩, ih⟩
  · intro h
    induction bs with
    | nil => exact ⟨[], .nil⟩
    | cons b bs ih =>
      obtain ⟨⟨a, ha⟩, h⟩ := List.forall_mem_cons.mp h
      obtain ⟨as, has⟩ := ih h
      exact ⟨a :: as, .cons ha has⟩

lemma isPath_iff (text : String) :
    isPath text = true ↔ ∃ us : List (List Char), (∀ u ∈ us, IsAtom u) ∧ text.toList = '$' :: us.flatten := by
  rw [isPath, Option.isSome_iff_exists]
  constructor
  · rintro ⟨steps, h⟩
    obtain ⟨us, hus, ht⟩ := parse?_eq_some_iff.mp h
    exact ⟨us, exists_forall₂_iff.mp ⟨steps, hus⟩, ht⟩
  · rintro ⟨us, hus, ht⟩
    obtain ⟨steps, hs⟩ := exists_forall₂_iff.mpr hus
    exact ⟨steps, parse?_eq_some_iff.mpr ⟨us, hs, ht⟩⟩

/-! The steps of a reference path. -/

lemma mem_dots_append (deep : Bool) (rest : List Char) : (deep, rest) ∈ dots (separator deep ++ rest) := by
  cases deep with
  | false =>
    have hsecond : (none, rest) ∈ optional (literal ['.']) rest := mem_optional.mpr (.inr rfl)
    exact mem_bind.mpr ⟨_, mem_literal_append ['.'] rest, mem_bind.mpr ⟨_, hsecond, List.mem_singleton_self _⟩⟩
  | true =>
    have hsecond : (some (), rest) ∈ optional (literal ['.']) ('.' :: rest) :=
      mem_optional.mpr (.inl ⟨_, mem_literal_append ['.'] rest, rfl⟩)
    exact mem_bind.mpr ⟨_, mem_literal_append ['.'] ('.' :: rest),
      mem_bind.mpr ⟨_, hsecond, List.mem_singleton_self _⟩⟩

lemma mem_name_append {field rest : List Char} (hn : IsFieldName field)
    (hr : ∀ c ∈ rest.head?, isNameChar c = false) : (field, rest) ∈ name (field ++ rest) :=
  List.mem_of_head? ((head?_eq_outcome _ _).trans (outcome_name hn hr _))

lemma mem_digits_append {number rest : List Char} (hd : Literal.IsDigits number)
    (hr : ∀ c ∈ rest.head?, c.isDigit = false) : (number, rest) ∈ digits (number ++ rest) :=
  List.mem_of_head? ((head?_eq_outcome _ _).trans (outcome_digits hd hr _))

lemma exists_of_mem_dottedName {text : List Char} {way : PathStep × List Char} (h : way ∈ dottedName text) :
    ∃ u, IsNameAtom u ∧ text = u ++ way.2 := by
  obtain ⟨deep, hdeep, h⟩ := mem_bind.mp h
  obtain ⟨name, hname, h⟩ := mem_bind.mp h
  obtain rfl := List.mem_singleton.mp h
  obtain ⟨hn, ht⟩ := mem_name hname
  exact ⟨_, ⟨_, rfl, .field deep.1 hn⟩, by rw [mem_dots hdeep, ht, List.append_assoc]⟩

lemma exists_of_mem_bracketedName {text : List Char} {way : PathStep × List Char} (h : way ∈ bracketedName text) :
    ∃ u, IsNameAtom u ∧ text = u ++ way.2 := by
  obtain ⟨u, hw, ht⟩ := mem_bracketedName h
  obtain ⟨opened, hopened, h⟩ := mem_bind.mp h
  obtain ⟨name, hname, h⟩ := mem_bind.mp h
  obtain ⟨closed, hclosed, h⟩ := mem_bind.mp h
  obtain rfl := List.mem_singleton.mp h
  exact ⟨u, ⟨_, rfl, hw⟩, ht⟩

lemma exists_of_mem_singleIndex {text : List Char} {way : PathStep × List Char} (h : way ∈ singleIndex text) :
    ∃ u, IsSingleIndex u ∧ text = u ++ way.2 := by
  obtain ⟨opened, hopened, h⟩ := mem_bind.mp h
  obtain ⟨number, hnumber, h⟩ := mem_bind.mp h
  obtain ⟨closed, hclosed, h⟩ := mem_bind.mp h
  obtain rfl := List.mem_singleton.mp h
  obtain ⟨hd, ht⟩ := mem_digits hnumber
  refine ⟨_, ⟨_, .indices hd .nil⟩, ?_⟩
  rw [mem_literal hopened, ht, mem_literal hclosed]
  simp

lemma exists_of_mem_referenceStep {text : List Char} {way : List PathStep × List Char}
    (h : way ∈ referenceStep text) : ∃ u, IsReferenceStep u ∧ text = u ++ way.2 := by
  obtain ⟨named, hnamed, h⟩ := mem_bind.mp h
  obtain ⟨index, hindex, h⟩ := mem_bind.mp h
  obtain rfl := List.mem_singleton.mp h
  have hname : ∃ u, IsNameAtom u ∧ text = u ++ named.2 := by
    obtain ⟨r, hr, hnamed⟩ := mem_firstOf.mp hnamed
    rcases List.mem_pair.mp hr with rfl | rfl
    · exact exists_of_mem_dottedName hnamed
    · exact exists_of_mem_bracketedName hnamed
  obtain ⟨u, hu, ht⟩ := hname
  rcases mem_optional.mp hindex with ⟨read, hread, rfl⟩ | rfl
  · obtain ⟨v, hv, ht'⟩ := exists_of_mem_singleIndex hread
    exact ⟨u ++ v, ⟨u, v, hu, .inr hv, rfl⟩, by rw [ht, ht', List.append_assoc]⟩
  · exact ⟨u, ⟨u, [], hu, .inl rfl, (List.append_nil u).symm⟩, ht⟩

lemma exists_mem_named {u rest : List Char} (h : IsNameAtom u) (hr : ∀ c ∈ rest.head?, isNameChar c = false) :
    ∃ named, (named, rest) ∈ firstOf [dottedName, bracketedName] (u ++ rest) := by
  obtain ⟨step, hname, hw⟩ := h
  refine ⟨step, mem_firstOf.mpr ?_⟩
  cases hw with
  | field deep hn =>
    refine ⟨dottedName, List.mem_cons_self, ?_⟩
    rw [List.append_assoc]
    exact mem_bind.mpr ⟨_, mem_dots_append deep _, mem_bind.mpr ⟨_, mem_name_append hn hr, List.mem_singleton_self _⟩⟩
  | @bracketField name hn =>
    have hclosed : (name, '\'' :: ']' :: rest) ∈ PathStep.name (name ++ '\'' :: ']' :: rest) :=
      mem_name_append hn (by simpa using isNameChar_of_mem_signs (by decide))
    have hshape : '[' :: '\'' :: (name ++ ['\'', ']']) ++ rest = ['[', '\''] ++ (name ++ '\'' :: ']' :: rest) := by
      simp
    refine ⟨bracketedName, List.mem_cons_of_mem _ List.mem_cons_self, ?_⟩
    rw [hshape]
    exact mem_bind.mpr ⟨_, mem_literal_append _ _, mem_bind.mpr ⟨_, hclosed,
      mem_bind.mpr ⟨_, mem_literal_append ['\'', ']'] rest, List.mem_singleton_self _⟩⟩⟩
  | _ => exact absurd hname Bool.false_ne_true

lemma exists_mem_singleIndex {u : List Char} (h : IsSingleIndex u) (rest : List Char) :
    ∃ index, (index, rest) ∈ singleIndex (u ++ rest) := by
  obtain ⟨digits, hw⟩ := h
  cases hw with
  | indices hd hs =>
    cases hs
    have hclosed : (digits, ']' :: rest) ∈ PathStep.digits (digits ++ ']' :: rest) := mem_digits_append hd (by simp)
    have hshape : '[' :: (digits ++ (List.flatten [] ++ [']'])) ++ rest = ['['] ++ (digits ++ ']' :: rest) := by
      simp
    rw [hshape]
    exact ⟨_, mem_bind.mpr ⟨_, mem_literal_append _ _, mem_bind.mpr ⟨_, hclosed,
      mem_bind.mpr ⟨_, mem_literal_append [']'] rest, List.mem_singleton_self _⟩⟩⟩⟩

lemma exists_mem_referenceStep {u rest : List Char} (h : IsReferenceStep u)
    (hr : ∀ c ∈ rest.head?, isNameChar c = false) : ∃ steps, (steps, rest) ∈ referenceStep (u ++ rest) := by
  obtain ⟨name, index, hname, hindex, rfl⟩ := h
  rcases hindex with rfl | hi
  · obtain ⟨named, hn⟩ := exists_mem_named hname hr
    rw [List.append_nil]
    exact ⟨_, mem_bind.mpr ⟨_, hn, mem_bind.mpr ⟨_, mem_optional.mpr (.inr rfl), List.mem_singleton_self _⟩⟩⟩
  · obtain ⟨digits, hw⟩ := hi
    obtain ⟨named, hn⟩ := exists_mem_named hname (hw.endsName rest)
    obtain ⟨read, hread⟩ := exists_mem_singleIndex ⟨digits, hw⟩ rest
    rw [List.append_assoc]
    exact ⟨_, mem_bind.mpr ⟨_, hn,
      mem_bind.mpr ⟨_, mem_optional.mpr (.inl ⟨_, hread, rfl⟩), List.mem_singleton_self _⟩⟩⟩

lemma IsNameAtom.endsName {u : List Char} (h : IsNameAtom u) (rest : List Char) :
    ∀ c ∈ (u ++ rest).head?, isNameChar c = false := by
  obtain ⟨step, _, hw⟩ := h
  exact hw.endsName rest

lemma IsReferenceStep.endsName {u : List Char} (h : IsReferenceStep u) (rest : List Char) :
    ∀ c ∈ (u ++ rest).head?, isNameChar c = false := by
  obtain ⟨name, index, hname, -, rfl⟩ := h
  rw [List.append_assoc]
  exact hname.endsName (index ++ rest)

lemma IsReferenceStep.ne_nil {u : List Char} (h : IsReferenceStep u) : u ≠ [] := by
  obtain ⟨name, index, ⟨step, _, hw⟩, -, rfl⟩ := h
  exact List.append_ne_nil_of_left_ne_nil hw.ne_nil index

lemma isReferencePath_iff (text : String) : isReferencePath text = true ↔
    ∃ vs : List (List Char), (∀ v ∈ vs, IsReferenceStep v) ∧ text.toList = '$' :: vs.flatten := by
  rw [isReferencePath, accepts, isSome_whole?_iff]
  constructor
  · rintro ⟨steps, h⟩
    obtain ⟨root, hroot, h⟩ := mem_bind.mp h
    have h : (steps, []) ∈ upTo referenceStep root.2.length root.2 := h
    obtain ⟨vs, hvs, ht⟩ := exists_texts_of_mem_upTo (fun _ v => IsReferenceStep v)
      (fun _ _ => exists_of_mem_referenceStep) h
    refine ⟨vs, fun v hv => ?_, by rw [mem_literal hroot, ht]; simp⟩
    obtain ⟨_, h⟩ := exists_forall₂_iff.mp ⟨steps, hvs⟩ v hv
    exact h
  · rintro ⟨vs, hvs, ht⟩
    have hc : vs.length ≤ vs.flatten.length := by
      obtain ⟨us, hus⟩ := exists_forall₂_iff.mpr fun v hv => ⟨v, hvs v hv⟩
      exact hus.length_eq ▸ length_le_flatten IsReferenceStep.ne_nil hus
    obtain ⟨steps, hs⟩ : ∃ steps, (steps, []) ∈ upTo referenceStep vs.flatten.length (vs.flatten ++ []) :=
      exists_mem_upTo_of_texts exists_mem_referenceStep (fun h => h.endsName _) (by simp) hvs hc
    rw [List.append_nil] at hs
    rw [ht]
    exact ⟨steps, mem_bind.mpr ⟨_, mem_literal_append ['$'] vs.flatten, hs⟩⟩

/-! Names, each with at most one index. -/

lemma isName_of_isReference {step : PathStep} {rest : List PathStep} (h : isReference (step :: rest) = true) :
    step.isName = true := by
  unfold isReference at h
  split at h <;> simp_all

lemma isReference_cons_of_isReference {step : PathStep} {rest : List PathStep} (h : isReference rest = true) :
    isReference (step :: rest) = step.isName := by
  rw [isReference, h, Bool.and_true]
  rintro digits others rfl
  exact absurd (isName_of_isReference h) (by simp [isName])

/-- What reference paths are made of, as steps. -/
lemma isReference_of_isReferenceSteps {vs : List (List Char)} (h : ∀ v ∈ vs, IsReferenceStep v) :
    ∃ steps us, List.Forall₂ WrittenAs steps us ∧ isReference steps = true ∧ us.flatten = vs.flatten := by
  induction vs with
  | nil => exact ⟨[], [], .nil, rfl, rfl⟩
  | cons v vs ih =>
    obtain ⟨⟨name, index, ⟨step, hname, hw⟩, hi, rfl⟩, hvs⟩ := List.forall_mem_cons.mp h
    obtain ⟨steps, us, hus, hr, hflat⟩ := ih hvs
    rcases hi with rfl | ⟨digits, hd⟩
    · refine ⟨step :: steps, name :: us, .cons hw hus, ?_, ?_⟩
      · rw [isReference_cons_of_isReference hr, hname]
      · rw [List.flatten_cons, List.flatten_cons, hflat, List.append_nil]
    · refine ⟨step :: .indices digits [] :: steps, name :: index :: us, .cons hw (.cons hd hus), ?_, ?_⟩
      · rw [isReference, hname, hr, Bool.and_true]
      · rw [List.flatten_cons, List.flatten_cons, List.flatten_cons, hflat, List.append_assoc]

lemma isReferenceSteps_of_isReference {steps : List PathStep} {us : List (List Char)}
    (h : List.Forall₂ WrittenAs steps us) (hr : isReference steps = true) :
    ∃ vs : List (List Char), (∀ v ∈ vs, IsReferenceStep v) ∧ vs.flatten = us.flatten := by
  induction steps using isReference.induct generalizing us with
  | case1 =>
    cases h
    exact ⟨[], List.forall_mem_nil _, rfl⟩
  | case2 step digits rest ih =>
    obtain _ | ⟨hstep, _ | ⟨hindex, hrest⟩⟩ := h
    rw [isReference, Bool.and_eq_true] at hr
    obtain ⟨vs, hvs, hflat⟩ := ih hrest hr.2
    refine ⟨_, List.forall_mem_cons.mpr ⟨⟨_, _, ⟨step, hr.1, hstep⟩, .inr ⟨digits, hindex⟩, rfl⟩, hvs⟩, ?_⟩
    rw [List.flatten_cons, List.flatten_cons, List.flatten_cons, hflat, List.append_assoc]
  | case3 step rest hne ih =>
    obtain _ | ⟨hstep, hrest⟩ := h
    rw [isReference, Bool.and_eq_true] at hr
    · obtain ⟨vs, hvs, hflat⟩ := ih hrest hr.2
      refine ⟨_, List.forall_mem_cons.mpr ⟨⟨_, [], ⟨step, hr.1, hstep⟩, .inl rfl, rfl⟩, hvs⟩, ?_⟩
      rw [List.flatten_cons, List.flatten_cons, hflat, List.append_nil]
    · exact hne

/-- The text is read as a reference path just where the steps of the path are those of one. -/
lemma isReferencePath_eq {text : String} {steps : List PathStep} {us : List (List Char)}
    (h : List.Forall₂ WrittenAs steps us) (ht : text.toList = '$' :: us.flatten) :
    isReferencePath text = isReference steps := by
  rw [Bool.eq_iff_iff, isReferencePath_iff]
  constructor
  · rintro ⟨vs, hvs, ht'⟩
    obtain ⟨others, ws, hws, hr, hflat⟩ := isReference_of_isReferenceSteps hvs
    have hsteps : parse? text = some steps := parse?_eq_some_iff.mpr ⟨us, h, ht⟩
    have hothers : parse? text = some others := parse?_eq_some_iff.mpr ⟨ws, hws, by rw [ht', hflat]⟩
    rwa [Option.some_inj.mp (hsteps.symm.trans hothers)]
  · intro hr
    obtain ⟨vs, hvs, hflat⟩ := isReferenceSteps_of_isReference h hr
    exact ⟨vs, hvs, by rw [ht, hflat]⟩

lemma isPath_of_isReferencePath {text : String} (h : isReferencePath text = true) : isPath text = true := by
  obtain ⟨vs, hvs, ht⟩ := (isReferencePath_iff text).mp h
  obtain ⟨steps, us, hus, -, hflat⟩ := isReference_of_isReferenceSteps hvs
  rw [isPath, parse?_eq_some_iff.mpr ⟨us, hus, by rw [ht, hflat]⟩, Option.isSome_some]

/-- The two readers agree on which paths point at a single node. -/
theorem isReferencePath_eq_any (text : String) : isReferencePath text = (parse? text).any isReference := by
  cases hs : parse? text with
  | some steps =>
    obtain ⟨us, hus, ht⟩ := parse?_eq_some_iff.mp hs
    exact isReferencePath_eq hus ht
  | none =>
    rw [Option.any_none, ← Bool.not_eq_true]
    intro h
    have hp := isPath_of_isReferencePath h
    rw [isPath, hs] at hp
    exact absurd hp (by decide)

/-! What reference paths do without. -/

lemma isPlain_append {u v : List Char} (hu : IsPlain u) (hv : IsPlain v) : IsPlain (u ++ v) :=
  List.forall_mem_append.mpr ⟨hu, hv⟩

lemma isPlain_flatten_iff {us : List (List Char)} : IsPlain us.flatten ↔ ∀ u ∈ us, IsPlain u := by
  induction us with
  | nil => simp [IsPlain]
  | cons u us ih => rw [List.flatten_cons, IsPlain, List.forall_mem_append, List.forall_mem_cons, ← ih]; rfl

lemma isPlain_of_class {p : Char → Bool} (hp : ∀ c ∈ ['*', ':', ','], p c = false) {u : List Char}
    (h : ∀ c ∈ u, p c = true) : IsPlain u :=
  fun c hc hm => ne_of_class (h c hc) (hp c hm) rfl

lemma isPlain_of_isFieldName {name : List Char} (h : IsFieldName name) : IsPlain name := by
  have hp : ∀ c ∈ ['*', ':', ','], isNameChar c = false := by
    intro c hc
    exact isNameChar_of_mem_signs (List.mem_append_right ['.', '[', '\''] hc)
  obtain ⟨first, others, rfl, hf, ho⟩ := h
  have hfirst : isNameChar first = true := by simp [isNameChar, hf]
  exact isPlain_of_class hp (List.forall_mem_cons.mpr ⟨hfirst, ho⟩)

lemma isPlain_of_isDigits {number : List Char} (h : Literal.IsDigits number) : IsPlain number :=
  isPlain_of_class (by simp) h.2

lemma isPlain_separator (deep : Bool) : IsPlain (separator deep) := by
  cases deep <;> decide

/-- The steps that reference paths may have. -/
lemma isPlain_iff {step : PathStep} {u : List Char} (h : step.WrittenAs u) :
    IsPlain u ↔ step.isName = true ∨ ∃ digits, step = .indices digits [] := by
  have hnot {c : Char} (hc : c ∈ ['*', ':', ',']) {u : List Char} (hm : c ∈ u) {P : Prop} (hP : ¬P) :
      IsPlain u ↔ P := iff_of_false (fun hu => hu c hm hc) hP
  cases h with
  | field deep hn =>
    exact iff_of_true (isPlain_append (isPlain_separator deep) (isPlain_of_isFieldName hn)) (.inl rfl)
  | anyField deep => exact hnot (c := '*') (by decide) (by simp) (by simp [isName])
  | @bracketField name hn =>
    have hplain : IsPlain (['[', '\''] ++ (name ++ ['\'', ']'])) :=
      isPlain_append (by decide) (isPlain_append (isPlain_of_isFieldName hn) (by decide))
    exact iff_of_true hplain (.inl rfl)
  | @indices first others texts hd hs =>
    cases hs with
    | nil =>
      have hplain : IsPlain (['['] ++ (first ++ [']'])) :=
        isPlain_append (by decide) (isPlain_append (isPlain_of_isDigits hd) (by decide))
      exact iff_of_true hplain (.inr ⟨first, rfl⟩)
    | cons hu _ =>
      obtain ⟨v, rfl⟩ := hu.exists_cons
      exact hnot (c := ',') (by decide) (by simp) (by simp [isName])
  | anyIndex => exact hnot (c := '*') (by decide) (by simp) (by simp [isName])
  | slice hf hl => exact hnot (c := ':') (by decide) (by simp) (by simp [isName])

lemma isIndexAtom_iff {step : PathStep} {u : List Char} (h : step.WrittenAs u) :
    IsIndexAtom u ↔ step.isIndex = true := by
  constructor
  · rintro ⟨other, ho, hw⟩
    rwa [h.unique hw]
  · exact fun hs => ⟨step, hs, h⟩

lemma isName_iff {step : PathStep} {u : List Char} (h : step.WrittenAs u) :
    step.isName = true ↔ IsPlain u ∧ ¬IsIndexAtom u := by
  rw [isPlain_iff h, isIndexAtom_iff h]
  cases step <;> simp [isName, isIndex]

lemma indicesApart_cons_iff {u : List Char} {us : List (List Char)} :
    IndicesApart (u :: us) ↔ ¬IsIndexAtom u ∧ us.IsChain fun u v => ¬(IsIndexAtom u ∧ IsIndexAtom v) := by
  rw [IndicesApart, List.isChain_cons]
  constructor
  · rintro ⟨hu, _, hs⟩
    exact ⟨hu u rfl, hs⟩
  · rintro ⟨hu, hs⟩
    exact ⟨by simpa using hu, fun v _ h => hu h.1, hs⟩

/-- Behind an index the steps stand as they do at the start. -/
lemma isChain_cons_iff_of_index {u : List Char} (hu : IsIndexAtom u) {us : List (List Char)} :
    (u :: us).IsChain (fun u v => ¬(IsIndexAtom u ∧ IsIndexAtom v)) ↔ IndicesApart us := by
  rw [List.isChain_cons]
  refine and_congr_left fun _ => forall₂_congr fun v _ => not_congr ?_
  exact and_iff_right hu

/-- Steps make a reference path just where they are names and single indices, and the indices stand apart. -/
lemma isReference_iff {steps : List PathStep} {us : List (List Char)} (h : List.Forall₂ WrittenAs steps us) :
    isReference steps = true ↔ (∀ u ∈ us, IsPlain u) ∧ IndicesApart us := by
  induction steps using isReference.induct generalizing us with
  | case1 =>
    cases h
    simp [isReference, IndicesApart]
  | case2 step digits rest ih =>
    obtain _ | ⟨hstep, _ | ⟨hindex, hrest⟩⟩ := h
    have hplain := (isPlain_iff hindex).mpr (.inr ⟨digits, rfl⟩)
    have hi := (isIndexAtom_iff hindex).mpr rfl
    rw [isReference, Bool.and_eq_true, ih hrest, isName_iff hstep, indicesApart_cons_iff,
      isChain_cons_iff_of_index hi, List.forall_mem_cons, List.forall_mem_cons]
    constructor
    · rintro ⟨⟨hu, hni⟩, hus, ha⟩
      exact ⟨⟨hu, hplain, hus⟩, hni, ha⟩
    · rintro ⟨⟨hu, _, hus⟩, hni, ha⟩
      exact ⟨⟨hu, hni⟩, hus, ha⟩
  | case3 step rest hne ih =>
    obtain _ | ⟨hstep, hrest⟩ := h
    rw [isReference, Bool.and_eq_true, ih hrest, isName_iff hstep, indicesApart_cons_iff, List.forall_mem_cons]
    · constructor
      · rintro ⟨⟨hu, hni⟩, hus, ha⟩
        exact ⟨⟨hu, hus⟩, hni, ha.2⟩
      · rintro ⟨⟨hu, hus⟩, hni, hs⟩
        refine ⟨⟨hu, hni⟩, hus, ?_, hs⟩
        intro v hv hi
        obtain ⟨vs, rfl⟩ := List.head?_eq_some_iff.mp hv
        obtain _ | ⟨hw, _⟩ := hrest
        rcases (isPlain_iff hw).mp (hus v List.mem_cons_self) with hname | ⟨digits, rfl⟩
        · exact ((isName_iff hw).mp hname).2 hi
        · exact hne _ _ rfl
    · exact hne

/-! Paths put together. -/

lemma flatten_ne_dollar {us : List (List Char)} (h : ∀ u ∈ us, IsAtom u) (rest : List Char) :
    us.flatten ≠ '$' :: rest := by
  intro he
  cases us with
  | nil => exact absurd he (by simp)
  | cons u us =>
    obtain ⟨step, hw⟩ := h u List.mem_cons_self
    obtain ⟨c, v, rfl, hc⟩ := hw.exists_cons
    obtain rfl : c = '$' := by simpa using congrArg List.head? he
    exact absurd hc (by decide)

/-- A second root in front is all that payload paths have besides the reference paths. -/
lemma isPayloadPath_iff (text : String) : isPayloadPath text = true ↔
    isReferencePath text = true ∨ ∃ rest, text = "$" ++ rest ∧ isPath rest = true := by
  rw [isPayloadPath]
  split
  · next rest ht =>
    have hnot : ¬isReferencePath text = true := by
      intro h
      obtain ⟨us, hus, hu⟩ := (isPath_iff text).mp (isPath_of_isReferencePath h)
      rw [ht, List.cons_inj_right] at hu
      exact flatten_ne_dollar hus rest hu.symm
    rw [or_iff_right hnot]
    constructor
    · intro h
      exact ⟨_, String.toList_inj.mp (by simp [ht]), h⟩
    · rintro ⟨path, rfl, h⟩
      have hp : path = String.ofList ('$' :: rest) := String.toList_inj.mp (by simpa using ht)
      rwa [← hp]
  · next hne =>
    refine (or_iff_left ?_).symm
    rintro ⟨path, rfl, h⟩
    obtain ⟨us, _, hu⟩ := (isPath_iff path).mp h
    exact hne us.flatten (by simp [hu])

/-- What stands behind the root may be appended. -/
lemma exists_flatten_append {p : List Char → Prop} {text : String} {rest : List Char}
    (h : ∃ us : List (List Char), (∀ u ∈ us, p u) ∧ text.toList = '$' :: us.flatten)
    (hr : ∃ vs : List (List Char), (∀ v ∈ vs, p v) ∧ (String.ofList ('$' :: rest)).toList = '$' :: vs.flatten) :
    ∃ ws : List (List Char), (∀ w ∈ ws, p w) ∧ (text ++ String.ofList rest).toList = '$' :: ws.flatten := by
  obtain ⟨us, hus, ht⟩ := h
  obtain ⟨vs, hvs, hrest⟩ := hr
  rw [String.toList_ofList, List.cons_inj_right] at hrest
  exact ⟨us ++ vs, List.forall_mem_append.mpr ⟨hus, hvs⟩, by simp [ht, hrest]⟩

/-- Paths, reference paths among them, and payload paths, as they are written. -/
theorem path_dialects (text : String) :
    (isPath text = true ↔ ∃ us : List (List Char), (∀ u ∈ us, IsAtom u) ∧ text.toList = '$' :: us.flatten) ∧
      (isReferencePath text = true ↔
        ∃ vs : List (List Char), (∀ v ∈ vs, IsReferenceStep v) ∧ text.toList = '$' :: vs.flatten) ∧
      (isReferencePath text = true → isPath text = true) ∧
      (∀ us : List (List Char), (∀ u ∈ us, IsAtom u) → text.toList = '$' :: us.flatten →
        (isReferencePath text = true ↔ IsPlain text.toList ∧ IndicesApart us)) ∧
      (∀ rest : List Char,
        (isPath text = true → isPath (String.ofList ('$' :: rest)) = true →
          isPath (text ++ String.ofList rest) = true) ∧
        (isReferencePath text = true → isReferencePath (String.ofList ('$' :: rest)) = true →
          isReferencePath (text ++ String.ofList rest) = true)) ∧
      (isPayloadPath text = true ↔
        isReferencePath text = true ∨ ∃ rest, text = "$" ++ rest ∧ isPath rest = true) := by
  refine ⟨isPath_iff text, isReferencePath_iff text, isPath_of_isReferencePath, ?_, ?_, isPayloadPath_iff text⟩
  · intro us hus ht
    obtain ⟨steps, hs⟩ := exists_forall₂_iff.mpr hus
    have hroot : IsPlain ('$' :: us.flatten) ↔ ∀ u ∈ us, IsPlain u :=
      List.forall_mem_cons.trans ((and_iff_right (by decide)).trans isPlain_flatten_iff)
    rw [isReferencePath_eq hs ht, isReference_iff hs, ht, hroot]
  · intro rest
    constructor
    · intro h hr
      exact (isPath_iff _).mpr (exists_flatten_append ((isPath_iff _).mp h) ((isPath_iff _).mp hr))
    · intro h hr
      exact (isReferencePath_iff _).mpr
        (exists_flatten_append ((isReferencePath_iff _).mp h) ((isReferencePath_iff _).mp hr))

end Path

end ProseSchema
