import ProseSchema.Proofs.TypePhraseReading
import ProseSchema.Rules.Entries

/-!
# Refused sentences

A sentence can be entered step by step: each field is allowed as soon as its own requirements are found, and
nothing that is entered is taken back. A refusal still leaves no entry behind, as all fields of a sentence share
one predicate: if it compares with no number, then the first field is refused already.
-/

namespace ProseSchema

/-- Is the literal a number, however large? -/
def Literal.IsNumber (literal : Literal) : Prop :=
  (∃ i, literal = .integer i) ∨ ∃ x, literal = .float x

lemma Literal.isNumber_iff (literal : Literal) : literal.IsNumber ↔ literal.toBinary64?.isSome = true := by
  cases literal <;> simp [IsNumber, toBinary64?]

/-- What the parts of a hyphenated word say about a value. A part that is no such word says nothing. -/
structure TypeWord where
  nonempty : Bool
  nullable : Bool
  inArray : Bool
  named : List (Sign ⊕ JsonType)
  deriving DecidableEq

namespace TypeWord

def named? (part : List Char) : Option (Sign ⊕ JsonType) :=
  match Sign.all.find? fun sign => chars sign.token = part with
  | some sign => some (.inl sign)
  | none => (JsonType.all.find? fun type => chars type.token = part).map .inr

/-- A last part `array` speaks of elements, but alone it is a type. -/
def ofText (word : String) : TypeWord :=
  let parts := (chars word).splitOn '-'
  let base := parts.filter fun part => part ≠ chars "nullable" && part ≠ chars "nonempty"
  let inArray := 1 < base.length && base.getLast? = some (chars "array")
  { nonempty := parts.contains (chars "nonempty")
    nullable := parts.contains (chars "nullable")
    inArray
    named := (if inArray then base.dropLast else base).filterMap named? }

def requirements (word : TypeWord) (field : String) : List Requirement :=
  (if word.nonempty then [.nonEmptyArray field] else []) ++
    word.named.map fun
      | .inl sign => .fieldRange field sign.range
      | .inr type => .fieldType field type word.inArray word.nullable

/-- What a type phrase says, read from its parts. -/
def ofPhrase (phrase : TypePhrase) : TypeWord where
  nonempty := phrase.arrangement = .array true
  nullable := phrase.nullable
  inArray := phrase.arrangement ≠ .single
  named := (phrase.base.sign?.map Sum.inl).toList ++ [.inr phrase.base.toJsonType]

lemma ofText_token (phrase : TypePhrase) : ofText phrase.token = ofPhrase phrase := by
  have hall : ∀ phrase ∈ TypePhrase.all, ofText phrase.token = ofPhrase phrase := by decide +kernel
  exact hall phrase phrase.mem_all

lemma requirements_ofPhrase (phrase : TypePhrase) (field : String) :
    (ofPhrase phrase).requirements field = phrase.requirements field := by
  obtain ⟨nullable, arrangement, base⟩ := phrase
  unfold requirements ofPhrase TypePhrase.requirements
  cases base <;> rcases arrangement with - | (- | -) <;> rfl

end TypeWord

/-- Entering into the tables step by step. What is entered before a refusal is not taken back. -/
abbrev Entering := ExceptT RuleError (StateM RuleTables)

namespace Entering

variable {α β : Type} {m : Entering α} {f : α → Entering β}

def record (entry : Entry) : Entering Unit :=
  modify (·.insert entry)

/-- From whatever tables, the steps end well and have entered just these entries. -/
def Enters (m : Entering α) (a : α) (entries : List Entry) : Prop :=
  ∀ t, m.run.run t = (.ok a, t.insertAll entries)

/-- From whatever tables, the steps are refused and leave the tables as they were. -/
def Refuses (m : Entering α) (e : RuleError) : Prop :=
  ∀ t, m.run.run t = (.error e, t)

lemma enters_pure (a : α) : Enters (pure a) a [] :=
  fun _ => rfl

lemma enters_record (entry : Entry) : Enters (record entry) () [entry] :=
  fun _ => rfl

lemma enters_lift {result : Except RuleError α} {a : α} (h : result = .ok a) :
    Enters (liftM result : Entering α) a [] := by
  rw [h]
  exact fun _ => rfl

lemma refuses_lift {result : Except RuleError α} {e : RuleError} (h : result = .error e) :
    Refuses (liftM result : Entering α) e := by
  rw [h]
  exact fun _ => rfl

lemma Enters.bind {a : α} {b : β} {entries later : List Entry} (hm : Enters m a entries)
    (hf : Enters (f a) b later) : Enters (m >>= f) b (entries ++ later) := by
  intro t
  rw [RuleTables.insertAll_append, ← hf, ExceptT.run_bind, StateT.run_bind, hm]
  rfl

lemma Enters.bind_pure {a : α} {g : α → β} {entries : List Entry} (hm : Enters m a entries) :
    Enters (m >>= fun a => pure (g a)) (g a) entries := by
  have h := hm.bind (f := fun a => pure (g a)) (enters_pure (g a))
  rwa [List.append_nil] at h

lemma Refuses.bind {e : RuleError} (hm : Refuses m e) : Refuses (m >>= f) e := by
  intro t
  rw [ExceptT.run_bind, StateT.run_bind, hm]
  rfl

lemma enters_mapM {step : α → Entering β} {results : α → β} {entries : α → List Entry} {l : List α}
    (h : ∀ a ∈ l, Enters (step a) (results a) (entries a)) :
    Enters (l.mapM step) (l.map results) (l.flatMap entries) := by
  induction l with
  | nil => exact enters_pure []
  | cons a l ih =>
    rw [List.forall_mem_cons] at h
    rw [List.mapM_cons, List.flatMap_cons]
    exact h.1.bind (ih h.2).bind_pure

lemma enters_forM_record (entries : List Entry) : Enters (entries.forM record) () entries := by
  induction entries with
  | nil => exact enters_pure ()
  | cons entry entries ih => exact (enters_record entry).bind ih

end Entering

lemma mapM_eq_ok_map {α β ε : Type} {f : α → Except ε β} {g : α → β} {l : List α}
    (h : ∀ a ∈ l, f a = .ok (g a)) : l.mapM f = .ok (l.map g) := by
  induction l with
  | nil => rfl
  | cons a l ih =>
    rw [List.forall_mem_cons] at h
    rw [List.mapM_cons, h.1, ih h.2]
    rfl

namespace ConstraintSentence

open Entering

/-- Does a field of that type word, or of none, have an inside of which the sentence says nothing? -/
def leavesOpen (s : ConstraintSentence) (word : Option String) : Bool :=
  (word.all fun word => word = "object" || word = "array") && s.modal ≠ .mustNot

def bounds (s : ConstraintSentence) (line : Nat) (field : String) : Except RuleError (List Requirement) :=
  match s.predicate with
  | some predicate => (fun r => [r]) <$> predicate.requirement field line
  | none => pure []

def wordRequirements (word : Option String) (field : String) : List Requirement :=
  match word with
  | some word => (TypeWord.ofText word).requirements field
  | none => []

def enterField (s : ConstraintSentence) (word : Option String) (line : Nat) (field : String) :
    Entering (List Requirement) := do
  let bounds ← s.bounds line field
  record (.allowed s.role field)
  pure (bounds ++ wordRequirements word field)

def enterChildren (s : ConstraintSentence) (word : Option String) : Entering Unit :=
  match s.child, s.fields with
  | some (.value role), fields => (fields.names.map fun field => .child s.role field role).forM record
  | some (.each role), fields => (fields.names.map fun field => .grandchild s.role field role).forM record
  | none, .single field => do
    if s.leavesOpen word then
      record (.grandchild s.role field field)
      record (.anyField field)
  | none, .oneOf _ => pure ()

/-- Enters a sentence field by field, with any word in the place of its type. -/
def enterInSteps (s : ConstraintSentence) (word : Option String) (line : Nat) : Entering (List String) := do
  let ofFields ← s.fields.names.mapM (s.enterField word line)
  let requirements := ofFields.flatten ++ s.modalRequirements
  (requirements.map fun r => .constraint s.role ((Constraint.of r).exclude s.excluded)).forM record
  s.enterChildren word
  pure s.newRoles

variable {s : ConstraintSentence} {word : Option String} {line : Nat}

/-- The number that is missing: what the predicate compares with, though it is no number. -/
def badTarget? (s : ConstraintSentence) : Option String :=
  match s.predicate with
  | some (.relation _ target) => if (Literal.ofToken target).toBinary64?.isSome then none else some target
  | _ => none

lemma badTarget?_eq_some_iff {target : String} : s.badTarget? = some target ↔
    ∃ relation, s.predicate = some (.relation relation target) ∧ ¬(Literal.ofToken target).IsNumber := by
  unfold badTarget?
  split
  · next relation other hp =>
    simp only [hp, Literal.isNumber_iff, Option.ite_none_left_eq_some, Option.some.injEq, Predicate.relation.injEq]
    constructor
    · rintro ⟨hn, rfl⟩
      exact ⟨relation, ⟨rfl, rfl⟩, hn⟩
    · rintro ⟨_, ⟨-, rfl⟩, hn⟩
      exact ⟨hn, rfl⟩
  · next hp =>
    constructor
    · exact fun h => absurd h (Option.some_ne_none target).symm
    · rintro ⟨relation, h, -⟩
      exact absurd h (hp relation target)

/-- Whether the predicate bounds a field does not depend on the field. -/
lemma bounds_of_badTarget? {target : String} (h : s.badTarget? = some target) (field : String) :
    s.bounds line field = .error (.nonNumericTarget line target) := by
  obtain ⟨relation, hp, hn⟩ := badTarget?_eq_some_iff.mp h
  rw [Literal.isNumber_iff, Option.not_isSome_iff_eq_none] at hn
  simp only [bounds, hp, Predicate.requirement, hn]
  rfl

lemma exists_bounds (h : s.badTarget? = none) (field : String) : ∃ bounds, s.bounds line field = .ok bounds := by
  unfold bounds
  split
  · next predicate hp =>
    cases predicate with
    | relation relation target =>
      simp only [badTarget?, hp, ite_eq_left_iff, reduceCtorEq, imp_false, Decidable.not_not] at h
      obtain ⟨bound, hb⟩ := Option.isSome_iff_exists.mp h
      exact ⟨_, by rw [Predicate.requirement, hb]; rfl⟩
    | oneOf values => exact ⟨_, rfl⟩
  · exact ⟨[], rfl⟩

/-- The word of a type phrase requires what the phrase requires. -/
lemma fieldRequirements_eq (field : String) : s.fieldRequirements line field =
    s.bounds line field >>= fun bounds => pure (bounds ++ wordRequirements (s.type.map TypePhrase.token) field) := by
  unfold fieldRequirements bounds
  cases s.type with
  | none => cases s.predicate <;> rfl
  | some phrase =>
    rw [Option.map_some, wordRequirements, TypeWord.ofText_token, TypeWord.requirements_ofPhrase]
    cases s.predicate <;> rfl

lemma leavesOpen_token : s.leavesOpen (s.type.map TypePhrase.token) = s.isOpen := by
  have hall : ∀ phrase ∈ TypePhrase.all,
      (decide (phrase.token = "object") || decide (phrase.token = "array")) = phrase.isOpen := by
    decide +kernel
  unfold leavesOpen isOpen
  cases s.type with
  | none => rfl
  | some phrase => simp [hall phrase phrase.mem_all]

lemma exists_enters_enterChildren (s : ConstraintSentence) (word : Option String) :
    ∃ entries, Enters (s.enterChildren word) () entries ∧
      (s.leavesOpen word = s.isOpen → entries = s.childEntries) := by
  unfold enterChildren childEntries
  rcases s.child with - | (role | role)
  · cases s.fields with
    | single field =>
      cases s.leavesOpen word with
      | false => exact ⟨[], enters_pure (), fun h => by rw [← h]; rfl⟩
      | true => exact ⟨_, (enters_record _).bind (enters_record (.anyField field)), fun h => by rw [← h]; rfl⟩
    | oneOf names => exact ⟨[], enters_pure (), fun _ => rfl⟩
  · exact ⟨_, enters_forM_record _, fun _ => rfl⟩
  · exact ⟨_, enters_forM_record _, fun _ => rfl⟩

lemma exists_bounds_of_names (line : Nat) (h : s.badTarget? = none ∨ s.fields.names = []) :
    ∃ bounds : String → List Requirement, ∀ field ∈ s.fields.names, s.bounds line field = .ok (bounds field) := by
  rcases h with h | h
  · have hfield : ∀ field, ∃ bounds, s.bounds line field = .ok bounds := exists_bounds h
    choose bounds hb using hfield
    exact ⟨bounds, fun field _ => hb field⟩
  · rw [h]
    exact ⟨fun _ => [], fun field hf => absurd hf List.not_mem_nil⟩

/-- What the sentence requires of the value of a field. -/
def valueRequirements (bounds : String → List Requirement) (word : Option String) (field : String) :
    List Requirement :=
  bounds field ++ wordRequirements word field

/-- What is entered in steps, given what bounds the fields and what is entered about their insides. -/
lemma enters_enterInSteps {bounds : String → List Requirement}
    (hb : ∀ field ∈ s.fields.names, s.bounds line field = .ok (bounds field)) {inside : List Entry}
    (hinside : Enters (s.enterChildren word) () inside) :
    Enters (s.enterInSteps word line) s.newRoles
      (s.fields.names.flatMap (fun field => [.allowed s.role field]) ++
        ((s.fields.names.flatMap (valueRequirements bounds word) ++ s.modalRequirements).map
          (fun r => .constraint s.role ((Constraint.of r).exclude s.excluded)) ++ inside)) := by
  have hfield : ∀ field ∈ s.fields.names, Enters (s.enterField word line field)
      (valueRequirements bounds word field) [.allowed s.role field] := fun field hf =>
    (enters_lift (hb field hf)).bind (enters_record _).bind_pure
  exact (enters_mapM hfield).bind ((enters_forM_record _).bind hinside.bind_pure)

/-- Without a refusal, all that the sentence has to enter is entered. -/
lemma exists_enters_enterInSteps (word : Option String) (line : Nat) (h : s.badTarget? = none ∨ s.fields.names = []) :
    ∃ entries, Enters (s.enterInSteps word line) s.newRoles entries ∧
      (word = s.type.map TypePhrase.token →
        ∃ requirements, s.requirements line = .ok requirements ∧ entries = s.entriesFor requirements) := by
  obtain ⟨bounds, hbounds⟩ := exists_bounds_of_names line h
  obtain ⟨inside, hinside, hopen⟩ := exists_enters_enterChildren s word
  refine ⟨_, enters_enterInSteps hbounds hinside, ?_⟩
  rintro rfl
  have hmapM : s.fields.names.mapM (s.fieldRequirements line) = .ok (s.fields.names.map
      (valueRequirements bounds (s.type.map TypePhrase.token))) := by
    apply mapM_eq_ok_map
    intro field hf
    rw [fieldRequirements_eq, hbounds field hf]
    rfl
  refine ⟨_, by rw [requirements, hmapM]; rfl, ?_⟩
  rw [entriesFor, hopen leavesOpen_token, List.append_assoc, ← List.map_eq_flatMap]
  rfl

lemma refuses_enterInSteps {target : String} (h : s.badTarget? = some target) (hn : s.fields.names ≠ []) :
    Refuses (s.enterInSteps word line) (.nonNumericTarget line target) := by
  -- The first field is refused before anything is entered.
  obtain ⟨field, fields, hf⟩ := List.exists_cons_of_ne_nil hn
  rw [enterInSteps, hf, List.mapM_cons]
  exact (refuses_lift (bounds_of_badTarget? h field)).bind.bind.bind

lemma requirements_of_badTarget? {target : String} (h : s.badTarget? = some target) (hn : s.fields.names ≠ []) :
    s.requirements line = .error (.nonNumericTarget line target) := by
  obtain ⟨field, fields, hf⟩ := List.exists_cons_of_ne_nil hn
  rw [requirements, hf, List.mapM_cons, fieldRequirements_eq, bounds_of_badTarget? h]
  rfl

lemma badTarget?_cases (s : ConstraintSentence) : (s.badTarget? = none ∨ s.fields.names = []) ∨
    ∃ target, s.badTarget? = some target ∧ s.fields.names ≠ [] := by
  cases h : s.badTarget? with
  | none => exact .inl (.inl rfl)
  | some target =>
    by_cases hn : s.fields.names = []
    · exact .inl (.inr hn)
    · exact .inr ⟨target, rfl, hn⟩

lemma enterInSteps_token (s : ConstraintSentence) (line : Nat) (t : RuleTables) :
    (s.enterInSteps (s.type.map TypePhrase.token) line).run.run t = s.enter line t := by
  rcases s.badTarget?_cases with h | ⟨target, h, hn⟩
  · obtain ⟨entries, hrun, hown⟩ := exists_enters_enterInSteps (s.type.map TypePhrase.token) line h
    obtain ⟨requirements, hr, rfl⟩ := hown rfl
    rw [hrun t, enter, hr]
  · rw [refuses_enterInSteps h hn t, enter, requirements_of_badTarget? h hn]

/-- A sentence is refused if it compares a field with no number, and then nothing of it is left in the tables. With
its own type as the word, entering it in steps and at once are the same. -/
theorem enterInSteps_eq_error_iff (s : ConstraintSentence) (word : Option String) (line : Nat)
    (t after : RuleTables) (e : RuleError) :
    ((s.enterInSteps word line).run.run t = (.error e, after) ↔
      after = t ∧ s.fields.names ≠ [] ∧ ∃ relation target, s.predicate = some (.relation relation target) ∧
        ¬(Literal.ofToken target).IsNumber ∧ e = .nonNumericTarget line target) ∧
    (s.enterInSteps (s.type.map TypePhrase.token) line).run.run t = s.enter line t := by
  refine ⟨?_, s.enterInSteps_token line t⟩
  rcases s.badTarget?_cases with h | ⟨target, h, hn⟩
  · obtain ⟨entries, hrun, -⟩ := exists_enters_enterInSteps word line h
    rw [hrun t]
    constructor
    · exact fun he => absurd (congrArg Prod.fst he) (by simp)
    · rintro ⟨-, hn, relation, target, hp, hnumber, -⟩
      have htarget := badTarget?_eq_some_iff.mpr ⟨relation, hp, hnumber⟩
      exact absurd (h.resolve_right hn) (by simp [htarget])
  · obtain ⟨relation, hp, hnumber⟩ := badTarget?_eq_some_iff.mp h
    rw [refuses_enterInSteps h hn t]
    constructor
    · intro he
      obtain ⟨herror, rfl⟩ := Prod.mk.inj he
      exact ⟨rfl, hn, relation, target, hp, hnumber, (Except.error.inj herror).symm⟩
    · rintro ⟨rfl, -, relation', target', hp', -, rfl⟩
      obtain ⟨-, rfl⟩ := Predicate.relation.inj (Option.some.inj (hp.symm.trans hp'))
      rfl

end ConstraintSentence

end ProseSchema
