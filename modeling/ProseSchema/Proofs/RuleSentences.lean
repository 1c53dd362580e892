import ProseSchema.Proofs.QuotedNames
import ProseSchema.Proofs.SpokenLines

/-!
# The sentences of a rule text

Each line is read under the roles that the lines before it introduce, and a line about several roles stands for
one sentence about each. A rule text comes to the list of these sentences: its tables are their entries, one after
the other, and they speak of no roles but those that the text introduces.
-/

namespace ProseSchema

open Reader

namespace Sentence

/-- The sentence is about known roles, and about fields that have names. -/
def SpeaksOf (known : String → Prop) : Sentence → Prop
  | constraint s => known s.role ∧ (∀ role ∈ s.excluded, known role) ∧
      s.fields.names ≠ [] ∧ ∀ name ∈ s.fields.names, IsQuotable name
  | onlyOneOf role fields => known role ∧ fields ≠ [] ∧ ∀ name ∈ fields, IsQuotable name
  | eachOf roles _ => ∀ role ∈ roles, known role
  | roleDefinition d => known d.role

lemma SpeaksOf.mono {known known' : String → Prop} (hk : ∀ role, known role → known' role) {s : Sentence}
    (h : s.SpeaksOf known) : s.SpeaksOf known' := by
  cases s with
  | constraint s => exact ⟨hk _ h.1, fun role hr => hk role (h.2.1 role hr), h.2.2⟩
  | onlyOneOf role fields => exact ⟨hk role h.1, h.2⟩
  | eachOf roles trailer => exact fun role hr => hk role (h role hr)
  | roleDefinition d => exact hk _ h

end Sentence

namespace RuleSet

def sentencesFrom (draft : Option Draft) : List (List Char) → List Sentence
  | [] => []
  | line :: rest =>
    if isBlank line then sentencesFrom draft rest
    else match draft with
      | none => sentencesFrom ((rootRole? line).map Draft.start) rest
      | some draft =>
        let said := draft.sentencesOf line
        said ++ sentencesFrom (some (said.foldl Draft.say draft)) rest

/-- The sentences of a rule text behind the declaration of its root. -/
def sentences (text : String) : List Sentence :=
  sentencesFrom none (lines text.toList)

end RuleSet

/-- The role is the root, or one of the sentences introduces it. -/
def Introduced (root : String) (said : List Sentence) (role : String) : Prop :=
  role = root ∨ ∃ s ∈ said, role ∈ s.newRoles

/-! What a line can say. -/

namespace Grammar

variable {g : Grammar} (hne : g.roles ≠ [])

include hne

lemma yields_role : Yields (· ∈ g.roles) (Enumeration.oneOf g.roles) :=
  yields_oneOf (fun _ h => h) fun h => absurd h hne

lemma yields_subject : Yields (· ∈ g.roles) g.subject :=
  .after _ fun _ => .after _ fun _ => .after _ fun _ => (yields_role hne).bind fun _ hr =>
    .after _ fun _ => .pure hr

lemma yields_exclusion : Yields (∀ role ∈ ·, role ∈ g.roles) g.exclusion :=
  .after _ fun _ => .after _ fun _ => .after _ fun _ => .after _ fun _ =>
    .pure (forall_mem_mentionsFrom (fun _ h => h) (fun h => absurd h hne) none 0 _)

lemma yields_constraintStart :
    Yields (fun start => start.1 ∈ g.roles ∧ ∀ role ∈ start.2.1, role ∈ g.roles) g.constraintStart := by
  refine (yields_subject hne).bind fun role hrole => (yields_exclusion hne).optional.bind fun excluded hx => ?_
  refine .after _ fun _ => .after _ fun _ => .after _ fun _ => .after _ fun _ => .after _ fun _ => ?_
  refine .pure ⟨hrole, ?_⟩
  cases excluded with
  | none => exact List.forall_mem_nil _
  | some excluded => exact hx excluded rfl

omit hne in
lemma yields_fieldNames :
    Yields (fun fields => fields.names ≠ [] ∧ ∀ name ∈ fields.names, IsQuotable name) fieldNames := by
  refine .after _ fun _ => .after _ fun _ => Yields.firstOf ?_
  rw [List.forall_mem_cons, List.forall_mem_singleton]
  constructor
  · exact yields_quotedNonempty.bind fun name hname => .pure ⟨by simp [FieldNames.names],
      List.forall_mem_singleton.mpr hname⟩
  · exact .after _ fun _ => .after _ fun _ => (yields_quotedList (by decide)).bind fun _ hnames => .pure hnames

/-- A sentence that is read speaks of roles that the grammar is made for. -/
lemma speaksOf_of_parse? {line : List Char} {s : Sentence} (h : g.parse? line = some s) :
    s.SpeaksOf (· ∈ g.roles) := by
  have hr := reads_of_parse? h
  cases s with
  | constraint s =>
    have hconstraint : Yields (fun s => Sentence.SpeaksOf (· ∈ g.roles) (.constraint s)) g.constraint :=
      (yields_constraintStart hne).bind fun _ hstart => .after _ fun _ => yields_fieldNames.bind fun _ hfields =>
        .after _ fun _ => .after _ fun _ => .after _ fun _ => .pure ⟨hstart.1, hstart.2, hfields⟩
    exact hconstraint line _ hr
  | onlyOneOf role fields =>
    have hchoice : Yields (Sentence.SpeaksOf (· ∈ g.roles)) g.onlyOneOf := by
      have hstart : Yields (· ∈ g.roles) g.onlyOneStart :=
        (yields_subject hne).bind fun _ hrole => .after _ fun _ => .after _ fun _ => .pure hrole
      exact hstart.bind fun _ hrole => .after _ fun _ => .after _ fun _ =>
        (yields_quotedList (by decide)).bind fun _ hnames => .after _ fun _ => .pure ⟨hrole, hnames⟩
    exact hchoice line _ hr
  | eachOf roles trailer => exact forall_mem_of_eachOf (fun _ h => h) (fun h => absurd h hne) hr
  | roleDefinition d =>
    have hdefinition : Yields (fun d => d.role ∈ g.roles) g.roleDefinition :=
      (yields_subject hne).bind fun _ hrole => .after _ fun _ => .after _ fun _ => .after _ fun _ =>
        .after _ fun _ => .after _ fun _ => .after _ fun _ => .pure hrole
    exact hdefinition line _ hr

end Grammar

namespace Draft

variable {draft : Draft} {said : List Sentence}

/-- The sentences speak of roles that the draft knows or that some of them introduce. -/
def Tells (draft : Draft) (said : List Sentence) : Prop :=
  ∀ s ∈ said, s.SpeaksOf (· ∈ (said.foldl say draft).roles)

namespace Tells

lemma append {more : List Sentence} (h : draft.Tells said) (hm : (said.foldl say draft).Tells more) :
    draft.Tells (said ++ more) := by
  unfold Tells
  rw [List.foldl_append]
  refine List.forall_mem_append.mpr ⟨?_, hm⟩
  intro s hs
  exact (h s hs).mono fun role hr => (mem_sayAll more).mpr (.inl hr)

lemma single {s : Sentence} (h : s.SpeaksOf (· ∈ draft.roles)) : draft.Tells [s] := by
  refine List.forall_mem_singleton.mpr (h.mono ?_)
  intro role hr
  exact (mem_sayAll [s]).mpr (.inl hr)

end Tells

lemma speaksOf_of_parse? (hne : draft.roles ≠ []) {line : List Char} {s : Sentence}
    (h : draft.grammar.parse? line = some s) : s.SpeaksOf (· ∈ draft.roles) := by
  have hg : draft.grammar.roles ≠ [] := by
    obtain ⟨role, hr⟩ := List.exists_mem_of_ne_nil _ hne
    exact List.ne_nil_of_mem (Grammar.mem_ofRoles.mpr hr)
  exact (Grammar.speaksOf_of_parse? hg h).mono fun role hr => Grammar.mem_ofRoles.mp hr

lemma sayAll_ne_nil (hne : draft.roles ≠ []) (said : List Sentence) : (said.foldl say draft).roles ≠ [] := by
  obtain ⟨role, hr⟩ := List.exists_mem_of_ne_nil _ hne
  exact List.ne_nil_of_mem ((mem_sayAll said).mpr (.inl hr))

lemma tells_spoken (hne : draft.roles ≠ []) (trailer : String) (roles : List String) :
    draft.Tells (draft.spoken trailer roles) := by
  induction roles generalizing draft with
  | nil => exact List.forall_mem_nil _
  | cons role roles ih =>
    rw [spoken]
    split
    · next s hs =>
      exact (Tells.single (speaksOf_of_parse? hne hs)).append (ih (sayAll_ne_nil hne [s]))
    · exact List.forall_mem_nil _

lemma tells_sentencesOf (hne : draft.roles ≠ []) (line : List Char) : draft.Tells (draft.sentencesOf line) := by
  unfold sentencesOf
  split
  · exact tells_spoken hne _ _
  · cases hs : draft.grammar.parse? line with
    | none => exact List.forall_mem_nil _
    | some s => exact Tells.single (speaksOf_of_parse? hne hs)

end Draft

namespace RuleSet

lemma tells_sentencesFrom {draft : Draft} (hne : draft.roles ≠ []) (text : List (List Char)) :
    draft.Tells (sentencesFrom (some draft) text) := by
  induction text generalizing draft with
  | nil => exact List.forall_mem_nil _
  | cons line text ih =>
    rw [sentencesFrom]
    split
    · exact ih hne
    · exact (Draft.tells_sentencesOf hne line).append (ih (Draft.sayAll_ne_nil hne _))

variable {library : PatternLibrary}

lemma read_some {draft : Draft} {number : Nat} {text : List (List Char)} {final : Option Draft}
    (h : read library (some draft) number text = .ok final) :
    final = some ((sentencesFrom (some draft) text).foldl Draft.say draft) ∧
      ∀ s ∈ sentencesFrom (some draft) text, s.IsAccepted := by
  induction text generalizing draft number with
  | nil => exact ⟨(Except.ok.inj h).symm, List.forall_mem_nil _⟩
  | cons line text ih =>
    obtain ⟨next, hs, h⟩ := ok_of_bind_eq_ok h
    rw [sentencesFrom]
    cases hb : isBlank line with
    | true =>
      rw [if_pos rfl]
      unfold step at hs
      rw [if_pos hb] at hs
      obtain rfl := Except.ok.inj hs
      exact ih h
    | false =>
      rw [step_some hb] at hs
      cases hr : rootRole? line with
      | some root => simp [hr] at hs
      | none =>
        rw [hr] at hs
        obtain ⟨after, ha, rfl⟩ := ok_of_map_eq_ok hs
        obtain ⟨rfl, haccepted⟩ := Draft.add_eq_say ha
        obtain ⟨hfinal, hothers⟩ := ih h
        rw [hfinal, if_neg (by simp), List.foldl_append, List.forall_mem_append]
        exact ⟨rfl, haccepted, hothers⟩

lemma read_none {number : Nat} {text : List (List Char)} {final : Draft}
    (h : read library none number text = .ok (some final)) :
    ∃ root, final = (sentencesFrom none text).foldl Draft.say (Draft.start root) ∧
      (Draft.start root).Tells (sentencesFrom none text) ∧ ∀ s ∈ sentencesFrom none text, s.IsAccepted := by
  induction text generalizing number with
  | nil => exact absurd (Except.ok.inj h) (by simp)
  | cons line text ih =>
    obtain ⟨next, hs, h⟩ := ok_of_bind_eq_ok h
    rw [sentencesFrom]
    unfold step at hs
    split at hs
    · obtain rfl := Except.ok.inj hs
      rw [if_pos ‹_›]
      exact ih h
    · rw [if_neg ‹_›]
      cases hr : rootRole? line with
      | none => simp [hr] at hs
      | some root =>
        rw [hr] at hs
        obtain ⟨first, hfirst, rfl⟩ := ok_of_map_eq_ok hs
        obtain rfl := Draft.built_eq_ok hfirst
        obtain ⟨hfinal, haccepted⟩ := read_some h
        exact ⟨root, Option.some.inj hfinal, tells_sentencesFrom (List.cons_ne_nil _ _) text, haccepted⟩

/-- A rule text is compiled to the last draft of its sentences. -/
lemma exists_root_of_compile {text : String} {rules : RuleSet} (h : compileWith library text = .ok rules) :
    ∃ root, let final := (sentences text).foldl Draft.say (Draft.start root)
      rules = ⟨final.root, final.tables⟩ ∧ (Draft.start root).Tells (sentences text) ∧
        ∀ s ∈ sentences text, s.IsAccepted := by
  obtain ⟨draft, hread, h⟩ := ok_of_bind_eq_ok h
  cases draft with
  | none => simp at h
  | some draft =>
    obtain ⟨root, rfl, htells⟩ := read_none hread
    exact ⟨root, (Except.ok.inj h).symm, htells⟩

variable {text : String} {rules : RuleSet} (h : compileWith library text = .ok rules)

include h

/-- The tables of a rule text are the entries of its sentences, one after the other. -/
theorem tables_eq_entries :
    rules.tables = RuleTables.insertAll {} ((sentences text).flatMap Sentence.entries) := by
  obtain ⟨root, rfl, _⟩ := exists_root_of_compile h
  exact Draft.sayAll_tables (sentences text)

/-- The sentences of a rule text speak of its root and of roles that they introduce. -/
theorem speaksOf_introduced : ∀ s ∈ sentences text, s.SpeaksOf (Introduced rules.root (sentences text)) := by
  obtain ⟨root, rfl, htells, _⟩ := exists_root_of_compile h
  intro s hs
  refine (htells s hs).mono fun role hr => ?_
  rw [Introduced, Draft.sayAll_root]
  rcases (Draft.mem_sayAll _).mp hr with hroot | hnew
  · exact .inl (List.mem_singleton.mp hroot)
  · exact .inr hnew

lemma accepted_of_compile : ∀ s ∈ sentences text, s.IsAccepted := by
  obtain ⟨_, _, _, haccepted⟩ := exists_root_of_compile h
  exact haccepted

end RuleSet

end ProseSchema
