import ProseSchema.Proofs.ReorderedItems
import ProseSchema.Proofs.WalkOutcome

/-!
# The walk and the order of members
-/

namespace ProseSchema.StatesLanguage

open Json

/-! What is checked within one state. -/

section

variable {a b : Json} (h : Alike a b)

include h

lemma isPayloadPathValue_alike : isPayloadPathValue a = isPayloadPathValue b := by
  rw [isPayloadPathValue, isPayloadPathValue, h.string?_eq]

lemma isPayloadValue_alike : isPayloadValue a = isPayloadValue b := by
  rw [isPayloadValue, isPayloadValue, h.string?_eq, isPayloadPathValue_alike h]

lemma hasStateType_alike (type : String) : hasStateType a type = hasStateType b type := by
  rw [hasStateType, hasStateType, h.text_eq]

lemma pathProblems_alike (place : Location) (field : String) (nullable : Bool) :
    pathProblems a place field nullable = pathProblems b place field nullable := by
  rcases h.get? field with ⟨ha, hb⟩ | ⟨v, w, ha, hb, hv⟩
  · simp only [pathProblems, ha, hb]
  · simp only [pathProblems, ha, hb]
    cases hv.reordered <;> rfl

omit h in
lemma templateMemberProblems_eq_flatMap (template : String) (place : Location)
    (members : List (String × Json)) :
    templateMemberProblems template place members = members.flatMap fun member =>
      if isPayloadKey member.1 then
        if isPayloadValue member.2 then [] else [.invalidPayloadPath member.1 template place]
      else templateProblems template (place.key member.1) member.2 := by
  induction members with
  | nil => rfl
  | cons member members ih => rw [templateMemberProblems, List.flatMap_cons, ih]

omit h in
lemma outlines_templateElementProblems {as bs : List Json}
    (h : List.Forall₂ (fun a b => ∀ template place,
      outlines (templateProblems template place a) = outlines (templateProblems template place b)) as bs)
    (template : String) (place : Location) (start : Nat) :
    outlines (templateElementProblems template place start as) =
      outlines (templateElementProblems template place start bs) := by
  induction h generalizing start with
  | nil => rfl
  | cons hab _ ih =>
    rw [templateElementProblems, templateElementProblems, outlines_append, outlines_append, hab, ih]

/-- Templates that are alike have the same problems, up to order. -/
lemma outlines_templateProblems (template : String) (place : Location) :
    outlines (templateProblems template place a) = outlines (templateProblems template place b) := by
  revert template place
  refine h.induction (motive := fun a b => ∀ template place,
    outlines (templateProblems template place a) = outlines (templateProblems template place b)) ?_ ?_ ?_
  · intro _ _ _ _ _
    rfl
  · intro as bs ih template place
    exact outlines_templateElementProblems ih template place 0
  · intro ms ns h ih template place
    rw [templateProblems, templateProblems, templateMemberProblems_eq_flatMap,
      templateMemberProblems_eq_flatMap]
    apply outlines_flatMap ih
    rintro _ _ ⟨name, hab, hv⟩
    rw [isPayloadValue_alike hab]
    split
    · rfl
    · exact hv template _

omit h in
lemma choiceElementProblems_alike {as bs : List Json}
    (h : List.Forall₂ (fun a b => ∀ place, choiceProblems place a = choiceProblems place b) as bs)
    (place : Location) (start : Nat) :
    choiceElementProblems place start as = choiceElementProblems place start bs := by
  induction h generalizing start with
  | nil => rfl
  | cons hab _ ih => rw [choiceElementProblems, choiceElementProblems, hab, ih]

/-- Choice rules that are alike have the same problems. -/
lemma choiceProblems_alike (place : Location) : choiceProblems place a = choiceProblems place b := by
  revert place
  refine h.induction (motive := fun a b => ∀ place, choiceProblems place a = choiceProblems place b) ?_ ?_ ?_
  · intro _ _ _ _
    rfl
  · intro as bs ih place
    exact choiceElementProblems_alike ih place 0
  · intro ms ns h ih place
    have hv : variableProblems ms place = variableProblems ns place := by
      rcases h.get? "Variable" with ⟨ha, hb⟩ | ⟨v, w, ha, hb, hv⟩
      · rw [variableProblems, variableProblems, show ms.lookup _ = _ from ha, show ns.lookup _ = _ from hb]
      · rw [variableProblems, variableProblems, show ms.lookup _ = _ from ha, show ns.lookup _ = _ from hb]
        simp only [isPayloadPathValue_alike hv]
    have ho (operator : String) : operandProblems operator place ms = operandProblems operator place ns := by
      rw [operandProblems_eq_lookup, operandProblems_eq_lookup]
      rcases lookup_of_rel h.names_nodup.1 h.names_nodup.2 ih operator with ⟨ha, hb⟩ | ⟨v, w, ha, hb, hv⟩
      · rw [ha, hb]
      · rw [ha, hb]
        exact hv.2 _
    rw [choiceProblems, choiceProblems, hv, ho, ho, ho]

lemma outlines_stateProblems (place : Location) :
    outlines (stateProblems a place) = outlines (stateProblems b place) := by
  simp only [stateProblems, outlines_append]
  congr 1
  · congr 1
    · simp only [pathProblems_alike h]
    · apply outlines_flatMap Multiset.rel_eq_refl
      rintro field _ rfl
      rcases h.get? field with ⟨ha, hb⟩ | ⟨v, w, ha, hb, hv⟩
      · rw [ha, hb]
      · rw [ha, hb]
        exact outlines_templateProblems hv field place
  · rw [hasStateType_alike h]
    rcases h.get? "Choices" with ⟨ha, hb⟩ | ⟨v, w, ha, hb, hv⟩
    · rw [ha, hb]
    · rw [ha, hb]
      simp only [Option.map_some, choiceProblems_alike hv]

lemma handledErrors_alike :
    handledErrors a = none ∧ handledErrors b = none ∨
      ∃ as bs, handledErrors a = some as ∧ handledErrors b = some bs ∧ List.Forall₂ Alike as bs := by
  rcases h.get? "ErrorEquals" with ⟨ha, hb⟩ | ⟨v, w, ha, hb, hv⟩
  · exact .inl ⟨by rw [handledErrors, ha, Option.bind_none], by rw [handledErrors, hb, Option.bind_none]⟩
  · rw [handledErrors, handledErrors, ha, hb]
    exact hv.array?

lemma isMisplaced_alike (last : Bool) : isMisplaced last a = isMisplaced last b := by
  rcases handledErrors_alike h with ⟨ha, hb⟩ | ⟨as, bs, ha, hb, he⟩
  · rw [isMisplaced, isMisplaced, ha, hb]
  · have hall : as.any (fun e => e.string? = some "States.ALL") =
        bs.any fun e => e.string? = some "States.ALL" := by
      clear ha hb
      induction he with
      | nil => rfl
      | cons hab _ ih => rw [List.any_cons, List.any_cons, hab.string?_eq, ih]
    simp only [isMisplaced, ha, hb, Option.any_some, he.length_eq, hall]

omit h in
lemma misplacedFrom_alike {as bs : List Json} (h : List.Forall₂ Alike as bs) (start : Nat) :
    misplacedFrom start as = misplacedFrom start bs := by
  induction h generalizing start with
  | nil => rfl
  | cons hab ht ih =>
    rw [misplacedFrom, misplacedFrom, isMisplaced_alike hab, ih]
    cases ht <;> rfl

lemma handlerProblems_alike (place : Location) : handlerProblems a place = handlerProblems b place := by
  rcases h.array? with ⟨ha, hb⟩ | ⟨as, bs, ha, hb, he⟩
  · rw [handlerProblems, handlerProblems, ha, hb]
  · rw [handlerProblems, handlerProblems, ha, hb, Option.bind_some, Option.bind_some, misplacedFrom_alike he]

end

end ProseSchema.StatesLanguage
