import ProseSchema.Proofs.Numerals
import ProseSchema.Proofs.ReadingBack
import ProseSchema.Proofs.SentenceMeaning
import ProseSchema.Validator

/-!
# Listed texts

The values that a sentence lists stand between quotes, and what stands between them is read as a literal. Main
statement: a field that has to be text and one of the values listed may hold just those of the listed texts
that are neither keywords nor numbers.
-/

namespace ProseSchema

namespace Literal

/-- A literal holds of a text if it is that text. -/
lemma holds_text_iff (literal : Literal) (text : String) :
    literal.holds (.string text) = true ↔ literal = .string text := by
  cases literal <;> simp [holds, eq_comm]

end Literal

namespace ConstraintSentence

/-- A field of the role may be there, is text, and has one of the values listed. -/
def listing (role field : String) (values : List String) : ConstraintSentence where
  role := role
  excluded := []
  modal := .may
  type := some ⟨false, .single, .plain .string⟩
  fields := .single field
  predicate := some (.oneOf values)
  child := none

variable {role field : String} {values : List String}

lemma parse_listing (hf : IsQuotable field) (hv : (Predicate.oneOf values).IsWritable) {roles : List String}
    (hr : role ∈ roles) (hroles : ∀ known ∈ roles, IsRoleName known) (w : Wording) :
    (Grammar.ofRoles roles).parse? (w.line (.constraint (listing role field values))) =
      some (.constraint (listing role field values)) := by
  have hover : (listing role field values).IsOver roles :=
    ⟨hr, by simp [listing], by simpa [listing, FieldNames.names] using hf, by simpa [listing] using hv,
      by simp [listing]⟩
  have hown := Grammar.isOwn_of_no_exclusion hroles w (s := listing role field values) rfl
  have hread := (Grammar.gives_constraint hroles w hover trivial).eq_iff.mpr hown
  have hstart : (Grammar.ofRoles roles).constraintStart (w.constraint (listing role field values)) ≠ [] := by
    rw [Grammar.constraint, Reader.outcome_bind] at hread
    exact Reader.ne_nil_of_outcome hread
  rw [Grammar.parse?_eq, Wording.line, if_pos hstart, Reader.whole?_eq_outcome, hread]
  rfl

/-- What the sentence requires of the field. -/
def listingRequirements (field : String) (values : List String) : List Requirement :=
  [.fieldAmong field (values.map Literal.ofToken), .fieldType field .string false false]

lemma enter_listing (line : Nat) (t : RuleTables) : (listing role field values).enter line t =
    (.ok [], t.insertAll ((listing role field values).entriesFor (listingRequirements field values))) :=
  rfl

/-- Among the literals that texts without quotes are read as, one holds of a text just where the text is one of
them and stands for itself. -/
lemma exists_holds_iff (hq : ∀ value ∈ values, '"' ∉ chars value) (text : String) :
    (∃ literal ∈ values.map Literal.ofToken, literal.holds (.string text) = true) ↔
      text ∈ values ∧ Literal.StandsForItself text := by
  simp only [List.mem_map, exists_exists_and_eq_and, Literal.holds_text_iff]
  constructor
  · rintro ⟨value, hm, he⟩
    obtain ⟨rfl, hs⟩ := (Literal.ofToken_eq_string_iff (hq value hm)).mp he
    exact ⟨hm, hs⟩
  · rintro ⟨hm, hs⟩
    exact ⟨text, hm, (Literal.ofToken_eq_string_iff (hq text hm)).mpr ⟨rfl, hs⟩⟩

/-- A sentence that lists texts for a field of a role is read back from its line, and it adds constraints to the
role that are put to every node. An object whose field is a text has no problem with them exactly when the text
is listed and neither a keyword nor a number. -/
theorem listing_admits_iff (hf : IsQuotable field) (hv : (Predicate.oneOf values).IsWritable) (role : String) :
    (∀ roles w, role ∈ roles → (∀ known ∈ roles, IsRoleName known) →
      (Grammar.ofRoles roles).parse? (Wording.line w (.constraint (listing role field values))) =
        some (.constraint (listing role field values))) ∧
    ∀ line t, ∃ after added, (listing role field values).enter line t = (.ok [], after) ∧
      after.constraintsOf role = t.constraintsOf role ++ added ∧
      (∀ played, ∀ c ∈ added, c.applies played = true) ∧
      ∀ members text place, members.lookup field = some (.string text) →
        ((∀ c ∈ added, c.requirement.problems (.object members) place = []) ↔
          text ∈ values ∧ Literal.StandsForItself text) := by
  constructor
  · intro roles w hr hroles
    exact parse_listing hf hv hr hroles w
  · intro line t
    refine ⟨_, (listingRequirements field values).map .of, enter_listing line t, ?_, ?_, ?_⟩
    · rw [constraintsOf_entriesFor]
      exact congrArg _ (if_pos rfl)
    · simp [Constraint.of, Constraint.applies]
    · intro members text place ht
      have hg : Json.get? field (.object members) = some (.string text) := ht
      have hamong := exists_holds_iff hv.2 text
      simp only [List.forall_mem_map, Constraint.of, Requirement.problems_eq_nil_iff, listingRequirements,
        List.forall_mem_cons, List.not_mem_nil, false_imp_iff, implies_true, and_true, Requirement.Satisfied, hg,
        Option.some.injEq, forall_eq', hamong]
      simp [Json.hasType]

/-- `A Switch MAY have a string field named "state" whose value MUST be one of "true", "false", or "unknown".` -/
def switchSentence : ConstraintSentence :=
  listing "Switch" "state" ["true", "false", "unknown"]

/-- Of the three texts listed just the one that is no keyword may be in the field. -/
theorem switchSentence_admits_unknown :
    IsQuotable "state" ∧ (Predicate.oneOf ["true", "false", "unknown"]).IsWritable ∧
    (Grammar.ofRoles ["Lamp", "Switch"]).parse? (Grammar.usualWording.line (.constraint switchSentence)) =
      some (.constraint switchSentence) ∧
    ∃ after added, switchSentence.enter 2 {} = (.ok [], after) ∧ after.constraintsOf "Switch" = added ∧
      ∀ text place, (∀ c ∈ added, c.requirement.problems (.object [("state", .string text)]) place = []) ↔
        text = "unknown" := by
  have hf : IsQuotable "state" := by decide
  have hv : (Predicate.oneOf ["true", "false", "unknown"]).IsWritable := by decide
  obtain ⟨hparse, henter⟩ := listing_admits_iff hf hv "Switch"
  obtain ⟨after, added, he, ha, -, hadmits⟩ := henter 2 {}
  refine ⟨hf, hv, hparse _ _ (by decide) (by decide), after, added, he, ha, fun text place => ?_⟩
  rw [hadmits _ text place rfl]
  constructor
  · rintro ⟨hm, hs⟩
    simp only [List.mem_cons, List.not_mem_nil, or_false] at hm
    rcases hm with rfl | rfl | rfl
    · exact absurd hs (by decide)
    · exact absurd hs (by decide)
    · rfl
  · rintro rfl
    decide

end ConstraintSentence

namespace Validator

def switches : String :=
  "\n".intercalate ["This document specifies a JSON object called a \"Switch\".",
    "A Switch MAY have a string field named \"state\" whose value MUST be one of \"true\", \"false\", or \"unknown\"."]

def switchRules : RuleSet :=
  ⟨"Switch", RuleTables.insertAll {} [.allowed "Switch" "state",
    .constraint "Switch" (.of (.fieldAmong "state" [.bool true, .bool false, .string "unknown"])),
    .constraint "Switch" (.of (.fieldType "state" .string false false))]⟩

/-- A listed text that is a keyword is reported as not listed. -/
theorem switches_of_true :
    RuleSet.compile switches = .ok switchRules ∧
    Validator.validate {} switchRules (.object [("state", .string "true")]) ≠ [] := by
  have h : RuleSet.compile switches = .ok switchRules := by
    rw [RuleSet.compile_eq_chars]
    decide +kernel
  have hp : Validator.problems {} switchRules (.object [("state", .string "true")]) ≠ [] := by
    decide +kernel
  refine ⟨h, ?_⟩
  rwa [validate, ne_eq, List.map_eq_nil_iff]

end Validator

end ProseSchema
