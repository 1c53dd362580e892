import ProseSchema.Proofs.LineNumbers

/-!
# Drafts

A line stands for one sentence, or for one about each of several roles. To learn it is to add the entries of these
sentences to the draft, and the roles that they introduce.
-/

namespace ProseSchema

/-- What the sentence enters into the tables; nothing if it is refused. -/
def ConstraintSentence.entries (s : ConstraintSentence) : List Entry :=
  match s.requirements 0 with
  | .ok requirements => s.entriesFor requirements
  | .error _ => []

namespace Sentence

/-- What the sentence enters into the tables by itself. -/
def entries : Sentence → List Entry
  | constraint s => s.entries
  | onlyOneOf role fields => [onlyOneOfEntry role fields]
  | eachOf _ _ => []
  | roleDefinition d => [d.entry]

/-- The sentence compares no value with something that is not a number. -/
def IsAccepted : Sentence → Prop
  | constraint s => ∃ requirements, s.requirements 0 = .ok requirements
  | _ => True

/-- The roles that a child clause or a definition introduces. -/
def newRoles : Sentence → List String
  | constraint s => s.newRoles
  | onlyOneOf _ _ => []
  | eachOf _ _ => []
  | roleDefinition d => [d.newRole]

end Sentence

namespace Draft

/-- The draft after a sentence. -/
def say (draft : Draft) (s : Sentence) : Draft :=
  s.newRoles.foldl learn { draft with tables := draft.tables.insertAll s.entries }

/-- The sentences that say a trailer of some roles, one after the other. -/
def spoken (trailer : String) (draft : Draft) : List String → List Sentence
  | [] => []
  | role :: roles =>
    match draft.grammar.parse? (spokenOf role trailer) with
    | some s => s :: spoken trailer (draft.say s) roles
    | none => []

/-- The sentences that a line stands for. -/
def sentencesOf (draft : Draft) (line : List Char) : List Sentence :=
  match draft.grammar.parse? line with
  | some (.eachOf roles trailer) => draft.spoken trailer roles
  | sentence => sentence.toList

end Draft

lemma ok_of_bind_eq_ok {α β : Type} {a : Except RuleError α} {f : α → Except RuleError β} {y : β}
    (h : a >>= f = .ok y) : ∃ x, a = .ok x ∧ f x = .ok y := by
  cases a with
  | error e => exact absurd h (by simp [Bind.bind, Except.bind])
  | ok x => exact ⟨x, rfl, h⟩

lemma ok_of_map_eq_ok {α β : Type} {a : Except RuleError α} {f : α → β} {y : β} (h : f <$> a = .ok y) :
    ∃ x, a = .ok x ∧ f x = y := by
  cases a with
  | error e => exact absurd h (by simp [Functor.map, Except.map])
  | ok x => exact ⟨x, rfl, Except.ok.inj h⟩

lemma ConstraintSentence.enter_eq_ok {s : ConstraintSentence} {number : Nat} {t after : RuleTables}
    {roles : List String} (h : s.enter number t = (.ok roles, after)) :
    roles = s.newRoles ∧ after = t.insertAll s.entries ∧ Sentence.IsAccepted (.constraint s) := by
  cases hr : s.requirements number with
  | error e => simp [enter, hr] at h
  | ok requirements =>
    have hzero := ((sameOutcome_requirements number 0 s).sameResult.ok_iff requirements).mp hr
    rw [enter, hr, Prod.mk.injEq, Except.ok.injEq] at h
    rw [entries, hzero]
    exact ⟨h.1.symm, h.2.symm, requirements, hzero⟩

namespace Draft

variable {library : PatternLibrary} {draft after : Draft}

/-! What a line adds to a draft. -/

lemma built_eq_ok (h : draft.built library = .ok after) : after = draft := by
  unfold built at h
  split at h
  · exact (Except.ok.inj h).symm
  · simp at h

lemma introduce_eq_learn {role : String} (h : draft.introduce library role = .ok after) :
    after = draft.learn role := by
  unfold introduce at h
  split at h
  · next hknown => rw [learn, if_pos hknown, Except.ok.inj h]
  · exact built_eq_ok h

lemma introduceAll_eq_learn {roles : List String} (h : roles.foldlM (introduce library) draft = .ok after) :
    after = roles.foldl learn draft := by
  induction roles generalizing draft with
  | nil => exact (Except.ok.inj h).symm
  | cons role roles ih =>
    rw [List.foldlM_cons] at h
    obtain ⟨next, hnext, h⟩ := ok_of_bind_eq_ok h
    rw [ih h, introduce_eq_learn hnext, List.foldl_cons]

lemma addOne_eq_say {number : Nat} {line : List Char} {s : Sentence}
    (h : draft.addOne library number line (some s) = .ok after) : after = draft.say s ∧ s.IsAccepted := by
  cases s with
  | constraint s =>
    simp only [addOne] at h
    split at h
    · next roles tables he =>
      obtain ⟨rfl, rfl, ha⟩ := ConstraintSentence.enter_eq_ok he
      exact ⟨introduceAll_eq_learn h, ha⟩
    · simp at h
  | onlyOneOf role fields => exact ⟨(Except.ok.inj h).symm, trivial⟩
  | eachOf roles trailer => simp [addOne] at h
  | roleDefinition d => exact ⟨introduce_eq_learn h, trivial⟩

lemma addLine_eq_say {number : Nat} {line : List Char} (h : draft.addLine library number line = .ok after) :
    ∃ s, draft.grammar.parse? line = some s ∧ after = draft.say s ∧ s.IsAccepted := by
  unfold addLine at h
  cases hs : draft.grammar.parse? line with
  | none => simp [hs, addOne] at h
  | some s =>
    rw [hs] at h
    exact ⟨s, rfl, addOne_eq_say h⟩

lemma addLines_eq_say {number : Nat} {trailer : String} {roles : List String}
    (h : roles.foldlM (fun draft role => draft.addLine library number (spokenOf role trailer)) draft = .ok after) :
    after = (draft.spoken trailer roles).foldl say draft ∧ ∀ s ∈ draft.spoken trailer roles, s.IsAccepted := by
  induction roles generalizing draft with
  | nil => exact ⟨(Except.ok.inj h).symm, List.forall_mem_nil _⟩
  | cons role roles ih =>
    rw [List.foldlM_cons] at h
    obtain ⟨next, hnext, h⟩ := ok_of_bind_eq_ok h
    obtain ⟨s, hs, rfl, ha⟩ := addLine_eq_say hnext
    rw [spoken, hs, List.foldl_cons, List.forall_mem_cons]
    obtain ⟨hafter, hothers⟩ := ih h
    exact ⟨hafter, ha, hothers⟩

lemma add_eq_say {number : Nat} {line : List Char} (h : draft.add library number line = .ok after) :
    after = (draft.sentencesOf line).foldl say draft ∧ ∀ s ∈ draft.sentencesOf line, s.IsAccepted := by
  unfold add at h
  unfold sentencesOf
  cases hp : draft.grammar.parse? line with
  | none => simp [hp, addOne] at h
  | some s =>
    rw [hp] at h
    cases s with
    | eachOf roles trailer => exact addLines_eq_say h
    | _ =>
      obtain ⟨hafter, ha⟩ := addOne_eq_say h
      exact ⟨hafter, List.forall_mem_singleton.mpr ha⟩

/-! What some sentences add to a draft. -/

/-- Roles are all that learning adds to. -/
lemma learnAll_eq (roles : List String) :
    roles.foldl learn draft = { draft with roles := (roles.foldl learn draft).roles } := by
  induction roles generalizing draft with
  | nil => rfl
  | cons role roles ih =>
    rw [List.foldl_cons, ih, learn]
    split <;> rfl

lemma mem_learn {known role : String} :
    known ∈ (draft.learn role).roles ↔ known ∈ draft.roles ∨ known = role := by
  unfold learn
  split
  · next h =>
    have hr : role ∈ draft.roles := by simpa using h
    constructor
    · exact .inl
    · rintro (hk | rfl)
      · exact hk
      · exact hr
  · simp

lemma mem_learnAll {known : String} {roles : List String} :
    known ∈ (roles.foldl learn draft).roles ↔ known ∈ draft.roles ∨ known ∈ roles := by
  induction roles generalizing draft with
  | nil => simp
  | cons role roles ih => rw [List.foldl_cons, ih, mem_learn, List.mem_cons, or_assoc]

variable (said : List Sentence)

lemma sayAll_root : (said.foldl say draft).root = draft.root := by
  induction said generalizing draft with
  | nil => rfl
  | cons s said ih => rw [List.foldl_cons, ih, say, learnAll_eq]

lemma sayAll_tables :
    (said.foldl say draft).tables = draft.tables.insertAll (said.flatMap Sentence.entries) := by
  induction said generalizing draft with
  | nil => rfl
  | cons s said ih =>
    rw [List.foldl_cons, ih, say, learnAll_eq, List.flatMap_cons, RuleTables.insertAll_append]

lemma mem_sayAll {known : String} :
    known ∈ (said.foldl say draft).roles ↔ known ∈ draft.roles ∨ ∃ s ∈ said, known ∈ s.newRoles := by
  induction said generalizing draft with
  | nil => simp
  | cons s said ih =>
    rw [List.foldl_cons, ih, say, mem_learnAll, or_assoc]
    simp only [List.mem_cons, exists_eq_or_imp]

end Draft

end ProseSchema
