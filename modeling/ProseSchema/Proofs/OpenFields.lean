import ProseSchema.Proofs.CoherentTables
import ProseSchema.Validator

/-!
# Open fields

What is inside an open field plays a role of the name of the field, and this role may have any field. Main
statement: no other role may, so unknown fields are reported for all nodes that play no role named for an open
field.
-/

namespace ProseSchema

/-- The sentence permits or requires the field alone and says nothing of what is inside: it has no child
clause, and no type but `object` and `array`. -/
structure ConstraintSentence.LeavesOpen (s : ConstraintSentence) (field : String) : Prop where
  fields : s.fields = .single field
  child : s.child = none
  modal : s.modal ≠ .mustNot
  type : ∀ phrase ∈ s.type,
    phrase = ⟨false, .single, .plain .object⟩ ∨ phrase = ⟨false, .single, .plain .array⟩

/-- One of the sentences leaves the field open. -/
def LeftOpen (said : List Sentence) (field : String) : Prop :=
  ∃ s, .constraint s ∈ said ∧ s.LeavesOpen field

namespace ConstraintSentence

variable {s : ConstraintSentence} {field : String}

lemma isOpen_iff : s.isOpen = true ↔ s.modal ≠ .mustNot ∧ ∀ phrase ∈ s.type,
    phrase = ⟨false, .single, .plain .object⟩ ∨ phrase = ⟨false, .single, .plain .array⟩ := by
  simp [isOpen, TypePhrase.isOpen, and_comm, Option.all_eq_true]

lemma anyField_mem_childEntries_iff : .anyField field ∈ s.childEntries ↔ s.LeavesOpen field := by
  constructor
  · intro h
    unfold childEntries at h
    split at h
    · simp at h
    · simp at h
    · next other hchild hfields =>
      split at h
      · next hopen =>
        obtain rfl : field = other := by simpa using h
        obtain ⟨hmodal, htype⟩ := isOpen_iff.mp hopen
        exact ⟨hfields, hchild, hmodal, htype⟩
      · exact absurd h List.not_mem_nil
    · exact absurd h List.not_mem_nil
  · rintro ⟨hfields, hchild, hmodal, htype⟩
    simp [childEntries, hfields, hchild, isOpen_iff.mpr ⟨hmodal, htype⟩]

lemma anyField_mem_entriesFor_iff (rs : List Requirement) :
    .anyField field ∈ s.entriesFor rs ↔ s.LeavesOpen field := by
  simp [entriesFor, anyField_mem_childEntries_iff]

end ConstraintSentence

lemma Sentence.anyField_mem_entries_iff {s : Sentence} (h : s.IsAccepted) {field : String} :
    .anyField field ∈ s.entries ↔ ∃ c, s = .constraint c ∧ c.LeavesOpen field := by
  cases s with
  | constraint s =>
    obtain ⟨rs, hr⟩ := h
    simp [entries, ConstraintSentence.entries, hr, ConstraintSentence.anyField_mem_entriesFor_iff]
  | roleDefinition d =>
    simp only [entries, RoleDefinition.entry]
    split <;> simp
  | _ => simp [entries, onlyOneOfEntry]

namespace RuleSet

variable {library : PatternLibrary} {text : String} {rules : RuleSet} (h : compileWith library text = .ok rules)

include h

lemma mem_anyField_iff (role : String) : role ∈ rules.tables.anyField ↔ LeftOpen (sentences text) role := by
  have hiff := has_iff h (.anyField role)
  refine hiff.trans ?_
  constructor
  · rintro ⟨s, hs, he⟩
    obtain ⟨c, rfl, hc⟩ := (Sentence.anyField_mem_entries_iff (accepted_of_compile h s hs)).mp he
    exact ⟨c, hs, hc⟩
  · rintro ⟨c, hs, hc⟩
    exact ⟨_, hs, (Sentence.anyField_mem_entries_iff (accepted_of_compile h _ hs)).mpr ⟨c, rfl, hc⟩⟩

omit h in
/-- What is reported of an item that is checked is reported of the document. -/
lemma report_of_mem_taken {document : Json} {item : Item}
    (hi : item ∈ taken rules.tables [rules.rootItem document]) {p : Problem}
    (hp : p ∈ item.problems rules.tables) (validator : Validator) :
    validator.catalog.report p ∈ validator.validate rules document := by
  have hm : p ∈ rules.problems document := by
    rw [problems, sweep_eq_taken]
    exact List.mem_flatMap.mpr ⟨item, hi, hp⟩
  exact List.mem_map_of_mem (List.mem_append_left _ hm)

/-- A role may have any field exactly when a sentence leaves a field of its name open. So of an object that is
checked in none of these roles every member is reported that no table of a role allows. -/
theorem open_roles :
    (∀ role, rules.tables.allowsAny [role] = true ↔ LeftOpen (sentences text) role) ∧
    ∀ (validator : Validator) (document : Json), ∀ item ∈ taken rules.tables [rules.rootItem document],
      ∀ members, item.node = .object members →
        (∀ role ∈ item.allRoles rules.tables, ¬LeftOpen (sentences text) role) →
        ∀ member ∈ members, (∀ role ∈ item.allRoles rules.tables, (role, member.1) ∉ rules.tables.allowed) →
          validator.catalog.report (.unknownField member.1 item.place) ∈ validator.validate rules document := by
  refine ⟨?_, ?_⟩
  · intro role
    rw [RuleTables.allowsAny_iff, ← mem_anyField_iff h]
    simp
  · intro validator document item hi members hnode hclosed member hm hunknown
    have hallows : rules.tables.allows (item.allRoles rules.tables) member.1 = false := by
      rw [← Bool.not_eq_true, RuleTables.allows_iff]
      rintro ⟨role, hr, hany | hmay⟩
      · exact hclosed role hr ((mem_anyField_iff h role).mp hany)
      · exact hunknown role hr hmay
    apply report_of_mem_taken hi
    refine Item.unknownField_mem_problems_iff.mpr ⟨⟨member.2, ?_⟩, hallows⟩
    rw [hnode]
    exact hm

omit h

def memo : String :=
  "\n".intercalate ["This document specifies a JSON object called a \"Memo\".",
    "A Memo MAY have a field named \"meta\"."]

def memoRules : RuleSet :=
  ⟨"Memo", RuleTables.insertAll {} [.allowed "Memo" "meta", .grandchild "Memo" "meta" "meta", .anyField "meta"]⟩

def memoDocument : Json :=
  .object [("meta", .object [("any", .null)]), ("other", .null)]

/-- Only what is inside the open field may have any field. -/
theorem memo_unknown_field :
    compile memo = .ok memoRules ∧ LeftOpen (sentences memo) "meta" ∧ ¬LeftOpen (sentences memo) "Memo" ∧
    Catalog.english.report (.unknownField "other" (.ofRoot "Memo")) ∈
      Validator.validate {} memoRules memoDocument := by
  have h : compile memo = .ok memoRules := by
    rw [compile_eq_chars]
    decide +kernel
  obtain ⟨hopen, hreports⟩ := open_roles h
  have hmeta : LeftOpen (sentences memo) "meta" := (hopen "meta").mp (by decide +kernel)
  have hmemo : ¬LeftOpen (sentences memo) "Memo" := by
    rw [← hopen "Memo"]
    decide +kernel
  have hroles : (memoRules.rootItem memoDocument).allRoles memoRules.tables = ["Memo"] := by decide +kernel
  refine ⟨h, hmeta, hmemo, ?_⟩
  refine hreports {} memoDocument (memoRules.rootItem memoDocument) ?_ _ rfl ?_ ("other", .null) ?_ ?_
  · rw [taken]
    exact List.mem_cons_self
  · rw [hroles]
    exact List.forall_mem_singleton.mpr hmemo
  · simp
  · rw [hroles]
    exact List.forall_mem_singleton.mpr (by decide +kernel)

/-- The field has the name of the root. -/
def config : String :=
  "\n".intercalate ["This document specifies a JSON object called a \"Config\".",
    "A Config MAY have an object field named \"Config\"."]

def configRules : RuleSet :=
  ⟨"Config", RuleTables.insertAll {} [.allowed "Config" "Config",
    .constraint "Config" (.of (.fieldType "Config" .object false false)),
    .grandchild "Config" "Config" "Config", .anyField "Config"]⟩

def configDocument : Json :=
  .object [("bogus", .null)]

/-- A field that is not allowed for the root is not reported where an open field has the name of the root. -/
theorem config_unknown_field :
    compile config = .ok configRules ∧ Introduced configRules.root (sentences config) "Config" ∧
    configRules.tables.allowsAny ["Config"] = true ∧
    (configRules.rootItem configDocument).allRoles configRules.tables = ["Config"] ∧
    ("Config", "bogus") ∉ configRules.tables.allowed ∧
    Validator.validate {} configRules configDocument = [] := by
  have h : compile config = .ok configRules := by
    rw [compile_eq_chars]
    decide +kernel
  refine ⟨h, .inl rfl, by decide +kernel, by decide +kernel, by decide +kernel, ?_⟩
  have hp : Validator.problems {} configRules configDocument = [] := by decide +kernel
  rw [Validator.validate, hp, List.map_nil]

end RuleSet

end ProseSchema
