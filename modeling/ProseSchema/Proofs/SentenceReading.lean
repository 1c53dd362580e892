import ProseSchema.Proofs.StartReading

/-!
# Reading sentences

Each form of sentence is read as a whole from the line that says it. A constraint may be read as one about a longer
role instead, and a sentence about several roles as one that lists a longer role; for both this is told exactly.
-/

namespace ProseSchema

open Reader

namespace Grammar

/-! Constraints. -/

lemma endsClause_childClause (w : Wording) (child : Option ChildClause) :
    EndsClause ((child.map w.childClause).getD [] ++ ['.']) := by
  cases child with
  | none => exact ⟨'.', [], rfl, .inl rfl, by simp⟩
  | some clause =>
    obtain ⟨more, hm⟩ : ∃ more, w.childClause clause ++ ['.'] = ';' :: ' ' :: more := by
      cases clause <;> simp [Wording.childClause]
    exact ⟨';', ' ' :: more, hm, .inr rfl, by simp ⟩

lemma endsList_predicate (p : Option Predicate) {rest : List Char} (hrest : EndsClause rest) :
    Enumeration.EndsList "or" ((p.map Predicate.text).getD [] ++ rest) := by
  cases p with
  | none => exact Enumeration.endsList_of_goesOn _ hrest.goesOn
  | some p =>
    obtain ⟨more, hm⟩ : ∃ more, p.text ++ rest = ' ' :: 'w' :: more := by
      cases p <;> simp [Predicate.text]
    have hs : Solid ('w' :: more) := by simp
    rw [Option.map_some, Option.getD_some, hm]
    apply Enumeration.endsList_blank hs
    simp

lemma exists_fields_text (fields : FieldNames) :
    ∃ more, fields.text = chars "field " ++ ('n' :: more) := by
  cases fields <;> simp [FieldNames.text]

/-- A constraint does not end behind white space. -/
lemma outcome_childClause_ending_of_blank {γ : Type} (f : Option ChildClause → γ) {text : List Char}
    (h : ∀ c ∈ text.head?, isSpace c = true) : (optional childClause).outcome
      (fun child text => ending.outcome (fun _ text => ended (f child) text) text) text = none := by
  cases text with
  | nil => simp [childClause, ending]
  | cons c text =>
    have hc : isSpace c = true := h c rfl
    have hs : ¬ ';' = c := by
      rintro rfl
      exact absurd hc (by decide)
    have hd : ¬ '.' = c := by
      rintro rfl
      exact absurd hc (by decide)
    simp [childClause, ending, hs, hd]

/-- The clauses of a constraint that stand behind its start. -/
def clauses (start : String × List String × Modal) : Reader ConstraintSentence := do
  let type ← optional typePhrase
  let fields ← fieldNames
  let predicate ← optional predicate
  let child ← optional childClause
  ending
  pure ⟨start.1, start.2.1, start.2.2, type, fields, predicate, child⟩

/-- What is written of a constraint behind its first article. -/
def clausesText (w : Wording) (s : ConstraintSentence) : List Char :=
  (s.type.map fun phrase => chars phrase.token ++ [' ']).getD [] ++ (s.fields.text ++
    ((s.predicate.map Predicate.text).getD [] ++ ((s.child.map w.childClause).getD [] ++ ['.'])))

lemma solid_clausesText (w : Wording) (s : ConstraintSentence) : Solid (clausesText w s) := by
  obtain ⟨more, hfields⟩ := exists_fields_text s.fields
  rw [clausesText, hfields, List.append_assoc]
  exact solid_type s.type _

lemma said_text (w : Wording) (s : ConstraintSentence) : w.said s = w.exclusion s.excluded ++ (chars s.modal.words ++
    (chars " have " ++ (w.article ((s.type.map TypePhrase.token).getD "field") ++ clausesText w s))) := by
  cases htype : s.type <;> simp [Wording.said, Wording.typePhrase, clausesText, htype]

lemma outcome_clauses {roles : List String} (w : Wording) {s : ConstraintSentence} (hs : s.IsOver roles) :
    (clauses (s.role, s.excluded, s.modal)).outcome ended (clausesText w s) = some s := by
  have hend := endsClause_childClause w s.child
  obtain ⟨more, hfields⟩ := exists_fields_text s.fields
  rw [clausesText, hfields, List.append_assoc]
  simp only [clauses, outcome_bind, outcome_pure]
  apply outcome_optional_typePhrase s.type (by simp)
  rw [← List.append_assoc, ← hfields]
  apply outcome_fieldNames hs.fields (endsList_predicate s.predicate hend)
  apply outcome_optional_predicate hend hs.predicate
  · intro read text h
    exact outcome_childClause_ending_of_blank _ h
  · apply outcome_optional_childClause w hs.child
    exact outcome_ending _

lemma outcome_said_eq {γ : Type} (g : Grammar) (role : String) (next : ConstraintSentence → List Char → Option γ)
    (text : List Char) : (g.said role).outcome next text = (optional g.exclusion).outcome
      (fun excluded text => (modalPhrase role (excluded.getD [])).outcome
        (fun start text => (clauses start).outcome next text) text) text := by
  simp only [said, modalPhrase, clauses, outcome_bind, outcome_pure]

lemma outcome_constraint_eq {γ : Type} (g : Grammar) (next : ConstraintSentence → List Char → Option γ)
    (text : List Char) : g.constraint.outcome next text =
      g.subject.outcome (fun role text => (g.said role).outcome next text) text := by
  simp only [constraint, constraintStart, said, outcome_bind, outcome_pure]

lemma yields_said (g : Grammar) (role : String) : Yields (·.role = role) (g.said role) :=
  .after _ fun _ => .after _ fun _ => .after _ fun _ => .after _ fun _ => .after _ fun _ => .after _ fun _ =>
    .after _ fun _ => .after _ fun _ => .after _ fun _ => .after _ fun _ => .after _ fun _ => .pure rfl

/-! Choices of fields. -/

lemma onlyOneOf_text (w : Wording) (role : String) (fields : List String) : w.onlyOneOf role fields = w.subject role ++
    (chars "MUST" ++ (chars " have only one of " ++ (Enumeration.text "and" (fields.map quote) ++ ['.']))) := by
  simp [Wording.onlyOneOf]

/-! Sentences said of several roles. -/

lemma solid_trailer {trailer : String} (ht : IsTrailer trailer) : Solid (chars trailer) := by
  obtain ⟨⟨verb, hv, more, hm⟩, -⟩ := ht
  rw [← hm]
  simp only [List.mem_cons, List.not_mem_nil, or_false] at hv
  rcases hv with rfl | rfl | rfl <;> simp

lemma endsList_trailer {trailer : String} (ht : IsTrailer trailer) :
    Enumeration.EndsList "and" (' ' :: chars trailer) := by
  apply Enumeration.endsList_blank (solid_trailer ht)
  obtain ⟨⟨verb, hv, more, hm⟩, -⟩ := ht
  rw [← hm]
  simp only [List.mem_cons, List.not_mem_nil, or_false] at hv
  rcases hv with rfl | rfl | rfl <;> simp

/-- What is read behind the list, where the roles are known. -/
def trailerBehind (listed : List String) (text : List Char) : Option Sentence :=
  blanks.outcome (fun _ text => (span (· ≠ '\n')).outcome
    (fun read text => ended (.eachOf listed (String.ofList read)) text) text) text

lemma trailerBehind_blank (listed : List String) {trailer : String} (ht : IsTrailer trailer) :
    trailerBehind listed (' ' :: chars trailer) = some (.eachOf listed trailer) := by
  have hline : ∀ c ∈ chars trailer, decide (c ≠ '\n') = true := by
    intro c h
    rw [decide_eq_true_eq]
    rintro rfl
    exact ht.2 h
  rw [trailerBehind, outcome_blanks_cons _ (solid_trailer ht), ← List.append_nil (chars trailer),
    outcome_span_append _ _ hline (by simp), ofList_chars]
  rfl

/-- Some of the text is white space in front of the trailer. -/
lemma length_of_trailerBehind {names listed : List String} {trailer : String} {text : List Char}
    (h : trailerBehind names text = some (.eachOf listed trailer)) : (chars trailer).length < text.length := by
  obtain ⟨gap, hgap, h⟩ := exists_way_of_outcome h
  obtain ⟨taken, htaken, hne⟩ := Takes.blanks_nonempty text gap hgap
  have hpos := List.length_pos_of_ne_nil hne
  have htrailer : gap.2.takeWhile (fun c => decide (c ≠ '\n')) = chars trailer := by
    rw [outcome_span, ended_eq_some_iff] at h
    simp [← (Sentence.eachOf.inj h.1).2, chars_eq_toList]
  have hprefix : gap.2.takeWhile (fun c => decide (c ≠ '\n')) <+: gap.2 := List.takeWhile_prefix _
  have hle := hprefix.length_le
  rw [htrailer] at hle
  rw [htaken, List.length_append]
  omega

/-- Whether a sentence about several roles goes on behind one of them does not depend on what they are. -/
lemma outcome_remainder_eq_none_iff (g : Grammar) {behind : List Char → Option Sentence}
    (hbehind : ∀ rest, ∃ names, behind rest = trailerBehind names rest) (place : Enumeration.Place)
    (text : List Char) :
    (Enumeration.remainder "and" (Enumeration.item true (Enumeration.oneOf g.roles)) place).outcome
        (fun _ => behind) text = none ↔ whole? (g.eachOfBehind place) text = none := by
  have hended {α β : Type} (a : α) (b : β) (rest : List Char) : (ended a rest).isSome = (ended b rest).isSome := by
    cases rest <;> rfl
  have h : ((Enumeration.remainder "and" (Enumeration.item true (Enumeration.oneOf g.roles)) place).outcome
      (fun _ => behind) text).isSome = (whole? (g.eachOfBehind place) text).isSome := by
    rw [whole?_eq_outcome, eachOfBehind]
    simp only [outcome_bind, outcome_pure]
    apply isSome_outcome_congr
    intro _ rest
    obtain ⟨names, hnames⟩ := hbehind rest
    rw [hnames]
    apply isSome_outcome_congr
    intro _ rest
    apply isSome_outcome_congr
    exact fun _ rest => hended _ _ rest
  rw [← Option.not_isSome_iff_eq_none, ← Option.not_isSome_iff_eq_none, h]

/-! Definitions of roles. -/

/-- The words of a role definition between its subject and its first name. -/
def definitionWords : List (List Char) :=
  ["is a ", "is an ", "whose ", "with a ", "with an "].map chars

lemma article_eq (w : Wording) (word : String) : w.article word = chars "a " ∨ w.article word = chars "an " := by
  cases ha : w.an word
  · exact .inl (by simp [Wording.article, ha])
  · exact .inr (by simp [Wording.article, ha])

lemma exists_definitionWords (w : Wording) (d : RoleDefinition) : ∃ words ∈ definitionWords, ∃ rest,
    w.condition d.condition ++ (chars "is " ++ (w.article d.newRole ++ (quote d.newRole ++ ['.']))) =
      words ++ '"' :: rest := by
  obtain ⟨role, condition, newRole⟩ := d
  cases condition with
  | always =>
    rcases article_eq w newRole with ha | ha
    · exact ⟨chars "is a ", by simp [definitionWords], chars newRole ++ ['"', '.'],
        by simp [Wording.condition, ha, quote]⟩
    · exact ⟨chars "is an ", by simp [definitionWords], chars newRole ++ ['"', '.'],
        by simp [Wording.condition, ha, quote]⟩
  | fieldValue field token =>
    exact ⟨chars "whose ", by simp [definitionWords], chars field ++ '"' :: (chars " field's value is " ++
      (chars token ++ ' ' :: (chars "is " ++ (w.article newRole ++ (quote newRole ++ ['.']))))),
        by simp [Wording.condition, quote]⟩
  | fieldPresence field =>
    have hrest (article : List Char) : chars "with " ++ article ++ quote field ++ chars " field " ++
        (chars "is " ++ (w.article newRole ++ (quote newRole ++ ['.']))) = chars "with " ++ article ++ '"' ::
          (chars field ++ '"' :: (chars " field is " ++ (w.article newRole ++ (quote newRole ++ ['.'])))) := by
      simp [quote]
    rcases article_eq w field with ha | ha
    · exact ⟨chars "with a ", by simp [definitionWords], _, by rw [Wording.condition, ha, hrest]; rfl⟩
    · exact ⟨chars "with an ", by simp [definitionWords], _, by rw [Wording.condition, ha, hrest]; rfl⟩

/-- The role that a definition gives, behind its condition. -/
def givenRole (role : String) (condition : RoleCondition) : Reader RoleDefinition := do
  literal (chars "is")
  blanks
  Enumeration.article
  let newRole ← quotedNonempty
  ending
  pure ⟨role, condition, String.ofList newRole⟩

lemma roleDefinition_eq (g : Grammar) : g.roleDefinition = (do
    let role ← g.subject
    let condition ← optional (firstOf [valueCondition, presenceCondition])
    givenRole role (condition.getD .always)) :=
  rfl

lemma outcome_definition_of_ne {γ : Type} (role : String) (next : RoleDefinition → List Char → Option γ)
    {c : Char} (h : c ∉ ['w', 'i']) (rest : List Char) :
    (optional (firstOf [valueCondition, presenceCondition])).outcome
      (fun condition text => (givenRole role (condition.getD .always)).outcome next text) (c :: rest) =
        none := by
  simp only [List.mem_cons, not_or] at h
  have hw : ¬ 'w' = c := Ne.symm h.1
  have hi : ¬ 'i' = c := Ne.symm h.2.1
  simp [givenRole, valueCondition, presenceCondition, hw, hi]

lemma outcome_givenRole (w : Wording) (role : String) (condition : RoleCondition) {newRole : String}
    (hq : IsQuotable newRole) : (givenRole role condition).outcome ended
      (chars "is " ++ (w.article newRole ++ (quote newRole ++ ['.']))) = some ⟨role, condition, newRole⟩ := by
  simp [givenRole, outcome_quote_nonempty hq, outcome_ending]

/-! Whole sentences. -/

section

variable {roles : List String} (hroles : ∀ role ∈ roles, IsRoleName role) (w : Wording)

include hroles

/-- Behind its subject a constraint is read as it is said. -/
lemma outcome_said {s : ConstraintSentence} (hs : s.IsOver roles)
    (hl : Enumeration.Along "or" w.item (fun _ => IsLongest roles) [] false s.excluded) :
    ((ofRoles roles).said s.role).outcome ended (w.said s) = some s := by
  obtain ⟨verb, hv, more, hverb⟩ := exists_verb s.modal
  have hmodal := outcome_modalPhrase w s.role s.excluded s.modal ((s.type.map TypePhrase.token).getD "field")
    (fun start text => (clauses start).outcome ended text) (solid_clausesText w s)
  rw [outcome_clauses w hs, hverb, List.append_assoc] at hmodal
  rw [said_text, hverb, List.append_assoc, outcome_said_eq, outcome_optional]
  by_cases hne : s.excluded = []
  · have hx : w.exclusion s.excluded = [] := by
      rw [hne]
      rfl
    rw [hx, List.nil_append, outcome_exclusion_verb _ _ hv, Option.none_or, Option.getD_none]
    rw [hne] at hmodal
    exact hmodal
  · rw [outcome_exclusion hroles hv w hne hs.excluded hl _ hmodal]
    rfl

/-- A constraint is read back just where no longer known role is its subject too. -/
theorem gives_constraint {s : ConstraintSentence} (hs : s.IsOver roles)
    (hl : Enumeration.Along "or" w.item (fun _ => IsLongest roles) [] false s.excluded) :
    Gives ((ofRoles roles).constraint.outcome ended (w.constraint s)) s
      (IsOwn roles (ofRoles roles).constraintBehind s.role (' ' :: w.said s)) := by
  have hsolid : Solid (w.said s) := by
    obtain ⟨verb, hv, more, hverb⟩ := exists_verb s.modal
    rw [said_text, hverb]
    rcases List.mem_pair.mp hv with rfl | rfl <;> by_cases hx : s.excluded = [] <;> simp [Wording.exclusion, hx]
  have hbehind (other : String) (text : List Char) :
      blanks.outcome (fun _ text => ((ofRoles roles).said other).outcome ended text) text =
        whole? ((ofRoles roles).constraintBehind other) text := by
    rw [whole?_eq_outcome, constraintBehind, outcome_bind]
  have hne : ∀ other behind, Displaces roles s.role (' ' :: w.said s) other behind →
      blanks.outcome (fun _ text => ((ofRoles roles).said other).outcome ended text) behind ≠ some s := by
    rintro other behind ⟨-, more, hmore, hmne, -⟩ hread
    obtain ⟨gap, -, hread⟩ := exists_way_of_outcome hread
    rw [← whole?_eq_outcome] at hread
    have hrole : s.role = other := yields_said _ other _ _ (mem_of_whole? hread)
    rw [← hrole, List.self_eq_append_right] at hmore
    exact hmne hmore
  rw [outcome_constraint_eq, Wording.constraint]
  apply (gives_subject hroles w hs.role hsolid hne (outcome_said hroles w hs hl)).congr
  simp only [IsOwn, hbehind]

/-- A constraint without an exclusion has its own subject, for no role goes on beyond the modal verb. -/
lemma isOwn_of_no_exclusion {s : ConstraintSentence} (hx : s.excluded = []) :
    IsOwn roles (ofRoles roles).constraintBehind s.role (' ' :: w.said s) := by
  obtain ⟨verb, hv, more, hverb⟩ := exists_verb s.modal
  have ht : w.said s = chars verb ++ (more ++ (chars " have " ++
      (w.article ((s.type.map TypePhrase.token).getD "field") ++ clausesText w s))) := by
    rw [said_text, hx, hverb, List.append_assoc]
    rfl
  intro other behind hd
  rw [ht] at hd
  have hgoes := isLongestWord_of_verb hroles hv (isLongest_nil roles s.role) _ other behind hd
  rw [whole?_eq_outcome, constraintBehind, outcome_bind, outcome_blanks_of_solid _ hgoes.solid]

theorem outcome_onlyOneOf {role : String} (hr : role ∈ roles) {fields : List String} (hne : fields ≠ [])
    (hf : ∀ field ∈ fields, IsQuotable field) :
    (ofRoles roles).onlyOneOf.outcome ended (w.onlyOneOf role fields) = some (.onlyOneOf role fields) := by
  have hs := solid_quotes "and" hne ['.']
  have hends : Enumeration.EndsList "and" ['.'] := Enumeration.endsList_of_goesOn _ (by simp)
  have hlist := outcome_quotedNames (by simp) hne hf hends
    (fun fields => ending.outcome fun _ text => ended (Sentence.onlyOneOf role fields) text) (outcome_ending _)
  rw [onlyOneOf_text, onlyOneOf, onlyOneStart]
  simp only [outcome_bind, outcome_pure]
  apply outcome_subject_verb hroles w hr (by simp)
  simp [phrase, hs, hlist]

/-- A sentence about several roles is read back just where no longer known role is read in place of one of them. -/
theorem gives_eachOf {listed : List String} (hne : listed ≠ []) (hm : ∀ role ∈ listed, role ∈ roles)
    {trailer : String} (ht : IsTrailer trailer)
    (hl : Enumeration.Along "and" w.item (fun _ => IsLongest roles) [] false listed) :
    Gives ((ofRoles roles).eachOf.outcome ended (w.eachOf listed trailer)) (.eachOf listed trailer)
      (Enumeration.Along "and" w.item (fun place => IsOwn roles fun _ => (ofRoles roles).eachOfBehind place)
        (' ' :: chars trailer) false listed) := by
  obtain ⟨behind, hbehind, hnames, hlist⟩ := Enumeration.outcome_roleList_eq hroles w (by simp) hm hl
    (' ' :: chars trailer) trailerBehind
  have hs := Enumeration.solid_items w "and" hne (' ' :: chars trailer)
  have hread : (ofRoles roles).eachOf.outcome ended (w.eachOf listed trailer) =
      ((ofRoles roles).roleList "and").outcome
        (fun read text => trailerBehind (Enumeration.mentions (ofRoles roles).roles read) text)
        (Enumeration.text "and" (listed.map w.item) ++ ' ' :: chars trailer) := by
    have htext : w.eachOf listed trailer =
        chars "Each" ++ ' ' :: (chars "of" ++ ' ' :: (Enumeration.text "and" (listed.map w.item) ++
          ' ' :: chars trailer)) := by
      simp [Wording.eachOf]
    simp only [htext, eachOf, phrase, outcome_bind, outcome_pure, outcome_literal_append]
    rw [outcome_blanks_cons _ (by simp), outcome_literal_append, outcome_blanks_cons _ hs]
    rfl
  rw [hread, hlist]
  have hitems : Enumeration.ReadsItems "and" (Enumeration.item true (Enumeration.oneOf (ofRoles roles).roles))
      w.item (· ∈ roles) (fun role rest behind => ∃ other, Displaces roles role rest other behind) :=
    Enumeration.readsItems_roles hroles w (by simp)
  apply (hitems.gives_list hne hm (endsList_trailer ht) (hbehind.trans (trailerBehind_blank listed ht)) _).congr
  · apply Enumeration.along_congr
    intro place role rest
    simp only [outcome_remainder_eq_none_iff _ hnames, forall_exists_index, IsOwn]
    rw [forall_comm]
  · -- A longer role goes on beyond the list, so what is left over is too short for the trailer.
    apply hl.imp
    rintro role - place u h text ⟨other, hd⟩ hread
    rw [List.append_nil] at h
    have hlength := length_of_displaces h hd
    obtain ⟨way, hway, hread⟩ := exists_way_of_outcome hread
    obtain ⟨names, htext⟩ := hnames way.2
    rw [htext] at hread
    have htrailer := length_of_trailerBehind hread
    have hsuffix := ((Enumeration.takes_remainder (Enumeration.takes_item _) place).suffix hway).length_le
    rw [List.length_cons] at hlength
    omega

theorem outcome_roleDefinition {d : RoleDefinition} (hr : d.role ∈ roles) (hc : d.condition.IsWritable)
    (hq : IsQuotable d.newRole) :
    (ofRoles roles).roleDefinition.outcome ended (w.roleDefinition d) = some d := by
  obtain ⟨words, hwords, rest, hrest⟩ := exists_definitionWords w d
  have hpass : ∀ words ∈ definitionWords, Passes ['w', 'i'] (words ++ ['"']) = true ∧
      Solid (words ++ ['"']) := by decide
  obtain ⟨hp, hs⟩ := hpass words hwords
  have ht : w.roleDefinition d = w.subject d.role ++ (words ++ ['"'] ++ rest) := by
    rw [List.append_assoc, List.singleton_append, ← hrest]
    simp [Wording.roleDefinition]
  rw [ht, roleDefinition_eq, outcome_bind]
  simp only [outcome_bind]
  apply outcome_subject_quote hroles w hr hp (by simp) hs
  · exact fun other c rest h => outcome_definition_of_ne other _ h rest
  · have hi : chars "is " ++ (w.article d.newRole ++ (quote d.newRole ++ ['.'])) =
        'i' :: 's' :: ' ' :: (w.article d.newRole ++ (quote d.newRole ++ ['.'])) := by
      simp
    have hgiven := outcome_givenRole w d.role d.condition hq
    rw [List.append_assoc, List.singleton_append, ← hrest, hi]
    rw [hi] at hgiven
    exact outcome_condition w hc (fun condition text => (givenRole d.role condition).outcome ended text) hgiven

end

end Grammar

end ProseSchema
