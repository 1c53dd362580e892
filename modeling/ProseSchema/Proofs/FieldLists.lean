import Mathlib.Data.List.Perm.Basic
import ProseSchema.Proofs.RefusedSentences
import ProseSchema.Proofs.SentenceMeaning

/-!
# Lists of fields

A sentence over a list of fields allows all of them, then requires something of all of them, and then gives all of
them their child role. The sentences over one of the fields each do the same field by field. The entries are the
same, and as those of different kinds go to different tables, they fill the tables alike. Only what a sentence
forbids comes after all else that it requires, and so the constraints of its role may stand in another order.
-/

namespace ProseSchema

namespace Entry

/-- Whichever of the two goes first, the tables are the same. -/
def Commutes (a b : Entry) : Prop :=
  ∀ t : RuleTables, (t.insert a).insert b = (t.insert b).insert a

end Entry

namespace RuleTables

lemma insertAll_cons (t : RuleTables) (entry : Entry) (entries : List Entry) :
    t.insertAll (entry :: entries) = (t.insert entry).insertAll entries :=
  rfl

lemma insertAll_insert {entry : Entry} {batch : List Entry} (h : ∀ a ∈ batch, entry.Commutes a) (t : RuleTables) :
    (t.insert entry).insertAll batch = (t.insertAll batch).insert entry := by
  induction batch generalizing t with
  | nil => rfl
  | cons a batch ih =>
    rw [List.forall_mem_cons] at h
    rw [insertAll_cons, insertAll_cons, h.1 t]
    exact ih h.2 _

/-- Batches whose entries commute can be swapped. -/
lemma insertAll_comm {first second : List Entry} (h : ∀ a ∈ first, ∀ b ∈ second, a.Commutes b) (t : RuleTables) :
    (t.insertAll first).insertAll second = (t.insertAll second).insertAll first := by
  induction first generalizing t with
  | nil => rfl
  | cons a first ih =>
    rw [List.forall_mem_cons] at h
    rw [insertAll_cons, insertAll_cons, ih h.2, insertAll_insert h.1]

/-- One batch per field and then another one per field, or both for one field after the other. -/
lemma insertAll_flatMap_append {first second : String → List Entry}
    (h : ∀ f g, ∀ a ∈ first f, ∀ b ∈ second g, a.Commutes b) (fields : List String) (t : RuleTables) :
    t.insertAll (fields.flatMap first ++ fields.flatMap second) =
      t.insertAll (fields.flatMap fun field => first field ++ second field) := by
  induction fields generalizing t with
  | nil => rfl
  | cons field fields ih =>
    have hswap : ∀ a ∈ fields.flatMap first, ∀ b ∈ second field, a.Commutes b := by
      intro a ha
      obtain ⟨other, -, ha⟩ := List.mem_flatMap.mp ha
      exact h other field a ha
    simp only [List.flatMap_cons, insertAll_append] at ih ⊢
    rw [insertAll_comm hswap, ih]

/-- The same tables, but for the order of the constraints of one role. -/
structure SameButOrder (role : String) (t u : RuleTables) : Prop where
  tables : { t with constraints := u.constraints } = u
  ofRole : (t.constraintsOf role).Perm (u.constraintsOf role)
  ofOthers : ∀ other, other ≠ role → t.constraintsOf other = u.constraintsOf other

lemma SameButOrder.refl (role : String) (t : RuleTables) : SameButOrder role t t :=
  ⟨rfl, .refl _, fun _ _ => rfl⟩

lemma insertAll_constraints (t : RuleTables) (role : String) (added : List Constraint) :
    t.insertAll (added.map (.constraint role)) =
      { t with constraints := t.constraints ++ added.map fun constraint => (role, constraint) } := by
  induction added generalizing t with
  | nil =>
    rw [List.map_nil, List.map_nil, List.append_nil]
    rfl
  | cons constraint added ih =>
    rw [List.map_cons, insertAll_cons, ih]
    simp [insert]

lemma sameButOrder_of_perm {added others : List Constraint} (h : added.Perm others) (role : String)
    (t : RuleTables) :
    SameButOrder role (t.insertAll (added.map (.constraint role))) (t.insertAll (others.map (.constraint role))) where
  tables := by rw [insertAll_constraints, insertAll_constraints]
  ofRole := by
    rw [constraintsOf_insertAll_constraints, constraintsOf_insertAll_constraints, if_pos rfl, if_pos rfl]
    exact h.append_left _
  ofOthers := by
    intro other hne
    rw [constraintsOf_insertAll_constraints, constraintsOf_insertAll_constraints, if_neg hne, if_neg hne]

end RuleTables

namespace ConstraintSentence

open Entering RuleTables

/-- The sentence over a single field. -/
def about (s : ConstraintSentence) (field : String) : ConstraintSentence :=
  { s with fields := .single field }

@[simp] lemma names_about (s : ConstraintSentence) (field : String) : (s.about field).fields.names = [field] :=
  rfl

/-- Enters the sentences over one of the fields each, in the order of the fields. -/
def enterOneByOne (s : ConstraintSentence) (word : Option String) (line : Nat) : Entering (List (List String)) :=
  s.fields.names.mapM fun field => (s.about field).enterInSteps word line

/-- The role of what is inside a field, or of each of its parts. -/
def childEntry (s : ConstraintSentence) (field : String) : List Entry :=
  match s.child with
  | some (.value role) => [.child s.role field role]
  | some (.each role) => [.grandchild s.role field role]
  | none => []

def constraintOf (s : ConstraintSentence) (r : Requirement) : Constraint :=
  (Constraint.of r).exclude s.excluded

variable {s : ConstraintSentence} {word : Option String} {line : Nat}

lemma enters_enterChildren (h : s.child = none → s.leavesOpen word = false) :
    Enters (s.enterChildren word) () (s.fields.names.flatMap s.childEntry) := by
  cases hc : s.child with
  | some child =>
    unfold enterChildren
    cases child with
    | value role =>
      have he : s.childEntry = fun field => [.child s.role field role] := by
        funext field
        rw [childEntry, hc]
      rw [hc, he, ← List.map_eq_flatMap]
      exact enters_forM_record _
    | each role =>
      have he : s.childEntry = fun field => [.grandchild s.role field role] := by
        funext field
        rw [childEntry, hc]
      rw [hc, he, ← List.map_eq_flatMap]
      exact enters_forM_record _
  | none =>
    have hnil : s.fields.names.flatMap s.childEntry = [] := by
      rw [List.flatMap_eq_nil_iff]
      intro field _
      rw [childEntry, hc]
    rw [hnil]
    unfold enterChildren
    rw [hc]
    cases s.fields with
    | single field =>
      simp only [h hc]
      exact enters_pure ()
    | oneOf names => exact enters_pure ()

section Bounded

variable {bounds : String → List Requirement}

/-- A sentence that leaves nothing open enters the same kinds of entries for each of its fields. -/
lemma enters_kinds (hb : ∀ field ∈ s.fields.names, s.bounds line field = .ok (bounds field))
    (hc : s.child = none → s.leavesOpen word = false) :
    Enters (s.enterInSteps word line) s.newRoles
      (s.fields.names.flatMap (fun field => [.allowed s.role field]) ++
        (((s.fields.names.flatMap (valueRequirements bounds word) ++ s.modalRequirements).map s.constraintOf).map
          (.constraint s.role) ++ s.fields.names.flatMap s.childEntry)) := by
  rw [List.map_map]
  exact enters_enterInSteps hb (enters_enterChildren hc)

/-- The constraints of the sentence over a single field. -/
def constraintsAbout (s : ConstraintSentence) (bounds : String → List Requirement) (word : Option String)
    (field : String) : List Constraint :=
  (valueRequirements bounds word field ++ (s.about field).modalRequirements).map s.constraintOf

lemma enters_enterOneByOne (hb : ∀ field ∈ s.fields.names, s.bounds line field = .ok (bounds field))
    (hc : s.child = none → s.leavesOpen word = false) :
    Enters (s.enterOneByOne word line) (s.fields.names.map fun _ => s.newRoles)
      (s.fields.names.flatMap fun field => [.allowed s.role field] ++
        ((s.constraintsAbout bounds word field).map (.constraint s.role) ++ s.childEntry field)) := by
  apply enters_mapM
  intro field hf
  have hone : ∀ other ∈ (s.about field).fields.names, (s.about field).bounds line other = .ok (bounds other) := by
    rw [names_about, List.forall_mem_singleton]
    exact hb field hf
  have h := enters_kinds hone hc
  simp only [names_about, List.flatMap_singleton] at h
  exact h

end Bounded

lemma childEntry_cases {field : String} {entry : Entry} (h : entry ∈ s.childEntry field) :
    ∃ role, entry = .child s.role field role ∨ entry = .grandchild s.role field role := by
  unfold childEntry at h
  split at h
  · next role _ => exact ⟨role, .inl (List.mem_singleton.mp h)⟩
  · next role _ => exact ⟨role, .inr (List.mem_singleton.mp h)⟩
  · exact absurd h List.not_mem_nil

lemma commutes_childEntry {field : String} {entry : Entry} (h : entry ∈ s.childEntry field) :
    (∀ name, (Entry.allowed s.role name).Commutes entry) ∧ ∀ c, (Entry.constraint s.role c).Commutes entry := by
  obtain ⟨role, rfl | rfl⟩ := childEntry_cases h <;> exact ⟨fun _ _ => rfl, fun _ _ => rfl⟩

/-- Entries of different kinds commute, and so the constraints may as well go last. -/
lemma insertAll_constraints_last (added : List Constraint) (fields : List String) (t : RuleTables) :
    t.insertAll (fields.flatMap (fun field => [.allowed s.role field]) ++
        (added.map (.constraint s.role) ++ fields.flatMap s.childEntry)) =
      (t.insertAll (fields.flatMap (fun field => [.allowed s.role field]) ++ fields.flatMap s.childEntry)).insertAll
        (added.map (.constraint s.role)) := by
  have hcomm : ∀ a ∈ added.map (Entry.constraint s.role), ∀ b ∈ fields.flatMap s.childEntry, a.Commutes b := by
    intro a ha b hb
    obtain ⟨c, -, rfl⟩ := List.mem_map.mp ha
    obtain ⟨field, -, hb⟩ := List.mem_flatMap.mp hb
    exact (commutes_childEntry hb).2 c
  simp only [insertAll_append]
  exact insertAll_comm hcomm _

/-- Field by field, the tables are filled as kind by kind. -/
lemma insertAll_fields (constraints : String → List Constraint) (fields : List String) (t : RuleTables) :
    t.insertAll (fields.flatMap fun field => [.allowed s.role field] ++
        ((constraints field).map (.constraint s.role) ++ s.childEntry field)) =
      (t.insertAll (fields.flatMap (fun field => [.allowed s.role field]) ++ fields.flatMap s.childEntry)).insertAll
        ((fields.flatMap constraints).map (.constraint s.role)) := by
  have hallowed : ∀ f g, ∀ a ∈ [Entry.allowed s.role f],
      ∀ b ∈ (constraints g).map (.constraint s.role) ++ s.childEntry g, a.Commutes b := by
    intro f g a ha b hb
    rw [List.mem_singleton.mp ha]
    rcases List.mem_append.mp hb with hb | hb
    · obtain ⟨c, -, rfl⟩ := List.mem_map.mp hb
      exact fun _ => rfl
    · exact (commutes_childEntry hb).1 f
  have hconstraint : ∀ f g, ∀ a ∈ (constraints f).map (Entry.constraint s.role), ∀ b ∈ s.childEntry g,
      a.Commutes b := by
    intro f g a ha b hb
    obtain ⟨c, -, rfl⟩ := List.mem_map.mp ha
    exact (commutes_childEntry hb).2 c
  rw [← insertAll_flatMap_append hallowed, insertAll_append, ← insertAll_flatMap_append hconstraint, ← insertAll_append,
    ← List.map_flatMap, insertAll_constraints_last]

/-- What is forbidden of a field list is forbidden of its fields one by one. -/
lemma modalRequirements_eq_flatMap (h : s.modal ≠ .must) :
    s.modalRequirements = s.fields.names.flatMap fun field => (s.about field).modalRequirements := by
  unfold modalRequirements about
  cases hm : s.modal with
  | must => exact absurd hm h
  | mustNot => exact List.map_eq_flatMap
  | may => exact (List.flatMap_eq_nil_iff.mpr fun _ _ => rfl).symm

/-- Without a refusal, both ways end well. They fill the same tables but for constraints that come after them. -/
lemma exists_both_ways (line : Nat) (hm : s.modal ≠ .must) (hb : s.badTarget? = none ∨ s.fields.names = [])
    (hc : s.child = none → s.leavesOpen word = false) (t : RuleTables) :
    ∃ (u : RuleTables) (atOnce oneByOne : List Constraint),
      (s.enterInSteps word line).run.run t = (.ok s.newRoles, u.insertAll (atOnce.map (.constraint s.role))) ∧
      (s.enterOneByOne word line).run.run t =
        (.ok (s.fields.names.map fun _ => s.newRoles), u.insertAll (oneByOne.map (.constraint s.role))) ∧
      atOnce.Perm oneByOne ∧ (s.modal = .may → atOnce = oneByOne) := by
  obtain ⟨bounds, hbounds⟩ := exists_bounds_of_names line hb
  have hall := enters_kinds hbounds hc t
  have hone := enters_enterOneByOne hbounds hc t
  rw [insertAll_constraints_last, modalRequirements_eq_flatMap hm] at hall
  unfold constraintsAbout at hone
  rw [insertAll_fields, ← List.map_flatMap] at hone
  refine ⟨_, _, _, hall, hone, (List.flatMap_append_perm _ _ _).map _, ?_⟩
  intro hmay
  have hnil : ∀ field, (s.about field).modalRequirements = [] := by
    intro field
    unfold modalRequirements about
    rw [hmay]
  simp only [hnil, List.append_nil]
  rw [List.flatMap_eq_nil_iff.mpr fun _ _ => rfl, List.append_nil]

lemma refuses_enterOneByOne {target : String} (h : s.badTarget? = some target) (hn : s.fields.names ≠ []) :
    Refuses (s.enterOneByOne word line) (.nonNumericTarget line target) := by
  -- The sentence over the first field is refused, as it has the same predicate.
  obtain ⟨field, fields, hf⟩ := List.exists_cons_of_ne_nil hn
  rw [enterOneByOne, hf, List.mapM_cons]
  exact (refuses_enterInSteps (s := s.about field) h (List.cons_ne_nil field [])).bind

/-- Both ways compared: with `SameButOrder` whenever nothing is left open, and with the same tables if nothing is
forbidden. -/
lemma enterOneByOne_cases (line : Nat) (hm : s.modal ≠ .must) (hc : s.child = none → s.leavesOpen word = false)
    (t : RuleTables) :
    let atOnce := (s.enterInSteps word line).run.run t
    let oneByOne := (s.enterOneByOne word line).run.run t
    oneByOne.1 = (fun new => s.fields.names.map fun _ => new) <$> atOnce.1 ∧
      SameButOrder s.role atOnce.2 oneByOne.2 ∧ (s.modal = .may → oneByOne.2 = atOnce.2) := by
  rcases s.badTarget?_cases with hb | ⟨target, hb, hn⟩
  · obtain ⟨u, atOnce, oneByOne, hall, hone, hperm, hmay⟩ := exists_both_ways line hm hb hc t
    rw [hall, hone]
    exact ⟨rfl, sameButOrder_of_perm hperm s.role u, fun h => by rw [hmay h]⟩
  · rw [refuses_enterInSteps hb hn t, refuses_enterOneByOne hb hn t]
    exact ⟨rfl, .refl s.role t, fun _ => rfl⟩

/-- Does the sentence, with the word in the place of its type, say what is inside its fields? -/
def Settles (s : ConstraintSentence) (word : Option String) : Prop :=
  s.child ≠ none ∨ ∃ w, word = some w ∧ w ≠ "object" ∧ w ≠ "array"

lemma leavesOpen_eq_false (h : s.Settles word) (hc : s.child = none) : s.leavesOpen word = false := by
  obtain hs | ⟨w, rfl, ho, ha⟩ := h
  · exact absurd hc hs
  · simp [leavesOpen, ho, ha]

lemma leavesOpen_of_mustNot (h : s.modal = .mustNot) : s.leavesOpen word = false := by
  simp [leavesOpen, h]

/-- A sentence that permits a list of fields and settles what is inside them ends as the sentences over one of the
fields each do, and leaves the same tables. A sentence that forbids them does so too, but for the order of the
constraints of its role. It can end badly only over a number that is missing. With its own type as the word,
entering it in steps and at once are the same. -/
theorem enterOneByOne_eq (s : ConstraintSentence) (word : Option String) (line : Nat) (t : RuleTables) :
    let atOnce := (s.enterInSteps word line).run.run t
    let oneByOne := (s.enterOneByOne word line).run.run t
    (s.modal = .may → s.Settles word →
      oneByOne = ((fun new => s.fields.names.map fun _ => new) <$> atOnce.1, atOnce.2)) ∧
    (s.modal = .mustNot →
      oneByOne.1 = (fun new => s.fields.names.map fun _ => new) <$> atOnce.1 ∧
        SameButOrder s.role atOnce.2 oneByOne.2) ∧
    (∀ e, atOnce.1 = .error e → ∃ target, e = .nonNumericTarget line target) ∧
    (s.enterInSteps (s.type.map TypePhrase.token) line).run.run t = s.enter line t := by
  refine ⟨?_, ?_, ?_, s.enterInSteps_token line t⟩
  · intro hmay hs
    have hm : s.modal ≠ .must := by rw [hmay]; decide
    obtain ⟨hresult, -, htables⟩ := enterOneByOne_cases line hm (leavesOpen_eq_false hs) t
    exact Prod.ext hresult (htables hmay)
  · intro hnot
    have hm : s.modal ≠ .must := by rw [hnot]; decide
    obtain ⟨hresult, horder, -⟩ :=
      enterOneByOne_cases line hm (fun _ => leavesOpen_of_mustNot hnot) t
    exact ⟨hresult, horder⟩
  · intro e he
    rcases s.badTarget?_cases with hb | ⟨target, hb, hn⟩
    · obtain ⟨entries, hrun, -⟩ := exists_enters_enterInSteps word line hb
      rw [hrun t] at he
      exact absurd he (by simp)
    · rw [refuses_enterInSteps hb hn t] at he
      exact ⟨target, (Except.error.inj he).symm⟩

/-- A state may have retriers and catchers. -/
def handlersSentence : ConstraintSentence where
  role := "State"
  excluded := ["Fail State"]
  modal := .may
  type := some ⟨false, .array true, .plain .object⟩
  fields := .oneOf ["Retry", "Catch"]
  predicate := none
  child := some (.each "Handler")

/-- A state that fails has neither of two fields, and each would be a positive integer. -/
def failingSentence : ConstraintSentence where
  role := "Fail State"
  excluded := []
  modal := .mustNot
  type := some ⟨false, .single, .signed .positive .integer⟩
  fields := .oneOf ["TimeoutSeconds", "HeartbeatSeconds"]
  predicate := none
  child := none

theorem handlers_and_failing_one_by_one :
    let typed := some "nonempty-object-array"
    let signed := some "positive-integer"
    handlersSentence.modal = .may ∧ handlersSentence.Settles typed ∧ failingSentence.modal = .mustNot ∧
    (handlersSentence.enterOneByOne typed 4).run.run {} =
      (.ok [["Handler"], ["Handler"]], ((handlersSentence.enterInSteps typed 4).run.run {}).2) ∧
    SameButOrder "Fail State" ((failingSentence.enterInSteps signed 5).run.run {}).2
      ((failingSentence.enterOneByOne signed 5).run.run {}).2 ∧
    ((failingSentence.enterInSteps signed 5).run.run {}).2 ≠
      ((failingSentence.enterOneByOne signed 5).run.run {}).2 := by
  intro typed signed
  have hs : handlersSentence.Settles typed := .inl (by decide)
  have hresult : ((handlersSentence.enterInSteps typed 4).run.run {}).1 = .ok ["Handler"] := by decide +kernel
  have hmay := (enterOneByOne_eq handlersSentence typed 4 {}).1 rfl hs
  rw [hresult] at hmay
  exact ⟨rfl, hs, rfl, hmay, ((enterOneByOne_eq failingSentence signed 5 {}).2.1 rfl).2, by decide +kernel⟩

end ConstraintSentence

end ProseSchema
