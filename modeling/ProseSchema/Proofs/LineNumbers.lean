import Mathlib.Tactic.Lemma
import ProseSchema.Rules.Compile

namespace ProseSchema

/-- The same result, or no result in both cases. -/
def SameResult {α : Type} (a b : Except RuleError α) : Prop :=
  a.toOption = b.toOption

namespace SameResult

variable {α β : Type} {a b : Except RuleError α}

lemma refl (a : Except RuleError α) : SameResult a a :=
  rfl

lemma of_error (e e' : RuleError) : SameResult (.error e : Except RuleError α) (.error e') :=
  rfl

lemma bind (h : SameResult a b) {f g : α → Except RuleError β} (hfg : ∀ x, a = .ok x → SameResult (f x) (g x)) :
    SameResult (a >>= f) (b >>= g) := by
  cases a with
  | error e =>
    cases b with
    | error e' => rfl
    | ok y => exact absurd h (by simp [SameResult, Except.toOption])
  | ok x =>
    cases b with
    | error e' => exact absurd h (by simp [SameResult, Except.toOption])
    | ok y =>
      obtain rfl : x = y := Option.some.inj h
      exact hfg x rfl

lemma map (h : SameResult a b) (f : α → β) : SameResult (f <$> a) (f <$> b) := by
  cases a <;> cases b <;> simp_all [SameResult, Except.toOption, Functor.map, Except.map]

lemma ok_iff (h : SameResult a b) (x : α) : a = .ok x ↔ b = .ok x := by
  cases a <;> cases b <;> simp_all [SameResult, Except.toOption]

end SameResult

/-- The same result, or two errors that are so related. -/
inductive SameOutcome {α : Type} (R : RuleError → RuleError → Prop) : Except RuleError α → Except RuleError α → Prop
  | ok (x : α) : SameOutcome R (.ok x) (.ok x)
  | error {e e' : RuleError} (h : R e e') : SameOutcome R (.error e) (.error e')

namespace SameOutcome

variable {α β : Type} {R : RuleError → RuleError → Prop} {a b : Except RuleError α}

lemma sameResult (h : SameOutcome R a b) : SameResult a b := by
  cases h with
  | ok x => exact .refl _
  | error h => exact .of_error _ _

lemma bind (h : SameOutcome R a b) {f g : α → Except RuleError β}
    (hfg : ∀ x, a = .ok x → SameOutcome R (f x) (g x)) : SameOutcome R (a >>= f) (b >>= g) := by
  cases h with
  | ok x => exact hfg x rfl
  | error h => exact .error h

lemma mono (h : SameOutcome R a b) {S : RuleError → RuleError → Prop} (hRS : ∀ e e', R e e' → S e e') :
    SameOutcome S a b := by
  cases h with
  | ok x => exact .ok x
  | error h => exact .error (hRS _ _ h)

lemma map (h : SameOutcome R a b) (f : α → β) : SameOutcome R (f <$> a) (f <$> b) := by
  cases h with
  | ok x => exact .ok (f x)
  | error h => exact .error h

end SameOutcome

/-- The same error about two lines. What the lines say may differ. -/
inductive AtLines (n m : Nat) : RuleError → RuleError → Prop
  | missingRoot : AtLines n m (.missingRoot n) (.missingRoot m)
  | duplicateRoot : AtLines n m (.duplicateRoot n) (.duplicateRoot m)
  | unrecognizedLine (text other : String) : AtLines n m (.unrecognizedLine n text) (.unrecognizedLine m other)
  | nonNumericTarget (target : String) : AtLines n m (.nonNumericTarget n target) (.nonNumericTarget m target)
  | grammar (message : String) : AtLines n m (.grammar message) (.grammar message)

section

variable {library : PatternLibrary} (n m : Nat)

lemma sameOutcome_requirement (p : Predicate) (field : String) :
    SameOutcome (AtLines n m) (p.requirement field n) (p.requirement field m) := by
  cases p with
  | relation r target =>
    simp only [Predicate.requirement]
    cases (Literal.ofToken target).toBinary64? with
    | none => exact .error (.nonNumericTarget target)
    | some bound => exact .ok _
  | oneOf values => exact .ok _

lemma sameOutcome_fieldRequirements (s : ConstraintSentence) (field : String) :
    SameOutcome (AtLines n m) (s.fieldRequirements n field) (s.fieldRequirements m field) := by
  unfold ConstraintSentence.fieldRequirements
  cases s.predicate with
  | none => exact .ok _
  | some p => exact ((sameOutcome_requirement n m p field).map _).bind fun _ _ => .ok _

lemma sameOutcome_requirements (s : ConstraintSentence) :
    SameOutcome (AtLines n m) (s.requirements n) (s.requirements m) := by
  refine SameOutcome.bind ?_ fun _ _ => .ok _
  induction s.fields.names with
  | nil => exact .ok _
  | cons name names ih =>
    rw [List.mapM_cons, List.mapM_cons]
    exact (sameOutcome_fieldRequirements n m s name).bind fun _ _ => ih.bind fun _ _ => .ok _

lemma sameOutcome_built (draft : Draft) :
    SameOutcome (AtLines n m) (draft.built library) (draft.built library) := by
  unfold Draft.built
  cases library.refusal? draft.grammar with
  | none => exact .ok draft
  | some message => exact .error (.grammar message)

lemma sameOutcome_introduce (draft : Draft) (role : String) :
    SameOutcome (AtLines n m) (draft.introduce library role) (draft.introduce library role) := by
  unfold Draft.introduce
  split
  · exact .ok draft
  · exact sameOutcome_built n m _

lemma sameOutcome_introduceAll (draft : Draft) (roles : List String) :
    SameOutcome (AtLines n m) (roles.foldlM (Draft.introduce library) draft)
      (roles.foldlM (Draft.introduce library) draft) := by
  induction roles generalizing draft with
  | nil => exact .ok draft
  | cons role roles ih =>
    rw [List.foldlM_cons]
    exact (sameOutcome_introduce n m draft role).bind fun next _ => ih next

/-- A sentence is entered as well from another line. -/
lemma sameOutcome_addOne (draft : Draft) (line other : List Char) (s : Option Sentence) :
    SameOutcome (AtLines n m) (draft.addOne library n line s) (draft.addOne library m other s) := by
  cases s with
  | none => exact .error (.unrecognizedLine _ _)
  | some s =>
    cases s with
    | constraint c =>
      have h := sameOutcome_requirements n m c
      simp only [Draft.addOne, ConstraintSentence.enter]
      revert h
      cases c.requirements n <;> cases c.requirements m <;> rintro (_ | h)
      · exact .error h
      · exact sameOutcome_introduceAll n m _ _
    | eachOf roles trailer => exact .error (.unrecognizedLine _ _)
    | onlyOneOf role fields => exact .ok _
    | roleDefinition d => exact sameOutcome_introduce n m _ _

lemma sameResult_addLine (draft : Draft) (line : List Char) :
    SameResult (draft.addLine library n line) (draft.addLine library m line) :=
  (sameOutcome_addOne n m draft line line _).sameResult

lemma sameResult_addLines (draft : Draft) (roles : List String) (trailer : String) :
    SameResult (roles.foldlM (fun draft role => draft.addLine library n (Draft.spokenOf role trailer)) draft)
      (roles.foldlM (fun draft role => draft.addLine library m (Draft.spokenOf role trailer)) draft) := by
  induction roles generalizing draft with
  | nil =>
    rw [List.foldlM_nil, List.foldlM_nil]
    exact .refl _
  | cons role roles ih =>
    rw [List.foldlM_cons, List.foldlM_cons]
    exact (sameResult_addLine n m draft _).bind fun next _ => ih next

lemma sameResult_add (draft : Draft) (line : List Char) :
    SameResult (draft.add library n line) (draft.add library m line) := by
  unfold Draft.add
  split
  · exact sameResult_addLines n m draft _ _
  · exact (sameOutcome_addOne n m draft line line _).sameResult

lemma sameResult_step (draft : Option Draft) (line : List Char) :
    SameResult (RuleSet.step library draft n line) (RuleSet.step library draft m line) := by
  unfold RuleSet.step
  split
  · exact .refl _
  · split
    · exact .refl _
    · exact .of_error _ _
    · exact (sameResult_add n m _ line).map _
    · exact .of_error _ _

lemma sameResult_read (draft : Option Draft) (text : List (List Char)) :
    SameResult (RuleSet.read library draft n text) (RuleSet.read library draft m text) := by
  induction text generalizing draft n m with
  | nil => exact .refl _
  | cons line text ih => exact (sameResult_step n m draft line).bind fun next _ => ih (n + 1) (m + 1) next

end

end ProseSchema
