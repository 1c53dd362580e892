import Mathlib.Tactic.Lemma
import ProseSchema.Rules.Compile

/-!
# Refused patterns

Whatever library builds the patterns, a text is compiled to what it says, or to the same error, unless the
library refuses some patterns. So no rules depend on the library.
-/

namespace ProseSchema

/-- The outcome is the expected one, or some patterns are refused. -/
inductive UnlessRefused {α : Type} (expected : Except RuleError α) : Except RuleError α → Prop
  | same : UnlessRefused expected expected
  | refused (message : String) : UnlessRefused expected (.error (.grammar message))

namespace UnlessRefused

variable {α β : Type} {expected outcome : Except RuleError α}

lemma bind (h : UnlessRefused expected outcome) {f g : α → Except RuleError β}
    (hfg : ∀ x, UnlessRefused (f x) (g x)) : UnlessRefused (expected >>= f) (outcome >>= g) := by
  cases h with
  | refused message => exact .refused message
  | same =>
    cases expected with
    | error e => exact .same
    | ok x => exact hfg x

lemma map (h : UnlessRefused expected outcome) (f : α → β) : UnlessRefused (f <$> expected) (f <$> outcome) := by
  cases h with
  | same => exact .same
  | refused message => exact .refused message

lemma ok (h : UnlessRefused expected outcome) {x : α} (hx : outcome = .ok x) : expected = .ok x := by
  cases h with
  | same => exact hx
  | refused message => exact absurd hx (by simp)

end UnlessRefused

variable (library : PatternLibrary)

namespace Draft

variable (draft : Draft) (number : Nat)

lemma unlessRefused_built : UnlessRefused (draft.built .unlimited) (draft.built library) := by
  unfold built
  cases library.refusal? draft.grammar with
  | none => exact .same
  | some message => exact .refused message

lemma unlessRefused_introduce (role : String) :
    UnlessRefused (draft.introduce .unlimited role) (draft.introduce library role) := by
  unfold introduce
  split
  · exact .same
  · exact unlessRefused_built library _

lemma unlessRefused_introduceAll (roles : List String) :
    UnlessRefused (roles.foldlM (introduce .unlimited) draft) (roles.foldlM (introduce library) draft) := by
  induction roles generalizing draft with
  | nil => exact .same
  | cons role roles ih =>
    rw [List.foldlM_cons, List.foldlM_cons]
    exact (unlessRefused_introduce library draft role).bind ih

lemma unlessRefused_addOne (line : List Char) (s : Option Sentence) :
    UnlessRefused (draft.addOne .unlimited number line s) (draft.addOne library number line s) := by
  match s with
  | some (.constraint s) =>
    rw [addOne, addOne]
    split
    · exact unlessRefused_introduceAll library _ _
    · exact .same
  | some (.roleDefinition d) => exact unlessRefused_introduce library _ d.newRole
  | none | some (.onlyOneOf _ _) | some (.eachOf _ _) => exact .same

lemma unlessRefused_addLines (trailer : String) (roles : List String) : UnlessRefused
    (roles.foldlM (fun draft role => draft.addLine .unlimited number (spokenOf role trailer)) draft)
    (roles.foldlM (fun draft role => draft.addLine library number (spokenOf role trailer)) draft) := by
  induction roles generalizing draft with
  | nil => exact .same
  | cons role roles ih =>
    rw [List.foldlM_cons, List.foldlM_cons]
    exact (unlessRefused_addOne library draft number _ _).bind ih

lemma unlessRefused_add (line : List Char) :
    UnlessRefused (draft.add .unlimited number line) (draft.add library number line) := by
  unfold add
  split
  · exact unlessRefused_addLines library draft number _ _
  · exact unlessRefused_addOne library draft number line _

end Draft

namespace RuleSet

lemma unlessRefused_step (draft : Option Draft) (number : Nat) (line : List Char) :
    UnlessRefused (step .unlimited draft number line) (step library draft number line) := by
  unfold step
  split
  · exact .same
  · split
    · exact (Draft.unlessRefused_built library _).map _
    · exact .same
    · exact (Draft.unlessRefused_add library _ number line).map _
    · exact .same

lemma unlessRefused_read (draft : Option Draft) (number : Nat) (text : List (List Char)) :
    UnlessRefused (read .unlimited draft number text) (read library draft number text) := by
  induction text generalizing draft number with
  | nil => exact .same
  | cons line text ih => exact (unlessRefused_step library draft number line).bind fun next => ih next (number + 1)

theorem unlessRefused_compileWith (text : String) : UnlessRefused (compile text) (compileWith library text) :=
  (unlessRefused_read library none 1 _).bind fun _ => .same

/-- Rules say the same with any library. -/
theorem compile_of_compileWith {text : String} {rules : RuleSet} (h : compileWith library text = .ok rules) :
    compile text = .ok rules :=
  (unlessRefused_compileWith library text).ok h

end RuleSet

end ProseSchema
