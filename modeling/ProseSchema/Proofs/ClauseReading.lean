import ProseSchema.Proofs.TypePhraseReading

/-!
# Reading the clauses of sentences

Each clause of a sentence is read as what it was written from, in front of what may stand behind it.
-/

namespace ProseSchema

open Reader

variable {γ : Type}

namespace Grammar

/-! Quoted names. -/

section

open Enumeration

lemma readsItems_quoted {connector : String} (hc : connector ∈ ["or", "and"]) {particle : Reader (List Char)}
    {P : String → Prop} (hp : ∀ {name : String}, P name → ∀ {γ : Type} (next : List Char → List Char → Option γ)
      (rest : List Char), particle.outcome next (quote name ++ rest) = next (chars name) rest)
    (hq : ∀ {γ : Type} (next : List Char → List Char → Option γ) {c : Char} (rest : List Char),
      c ≠ '"' → particle.outcome next (c :: rest) = none) (ht : Takes (fun _ => True) particle) :
    ReadsItems connector particle quote P (fun _ _ _ => False) where
  reads := by
    intro name rest hname γ next c p _ hn
    rw [hp hname]
    exact hn.congr (by simp)
  takes := ht
  solid := by
    intro name rest
    simp [quote]
  connector_solid := solid_connector hc
  no_connector := by
    intro rest γ next
    rcases List.mem_pair.mp hc with rfl | rfl <;> exact hq next _ (by decide)

lemma outcome_quotedNonempty_of_ne (next : List Char → List Char → Option γ) {c : Char} (rest : List Char)
    (h : c ≠ '"') : quotedNonempty.outcome next (c :: rest) = none := by
  have hc : ¬ '"' = c := Ne.symm h
  simp [quotedNonempty, hc]

lemma outcome_quoted_of_ne (next : List Char → List Char → Option γ) {c : Char} (rest : List Char)
    (h : c ≠ '"') : quoted.outcome next (c :: rest) = none := by
  have hc : ¬ '"' = c := Ne.symm h
  simp [quoted, hc]

lemma outcome_quote {name : String} (h : '"' ∉ chars name) (next : List Char → List Char → Option γ)
    (rest : List Char) : quoted.outcome next (quote name ++ rest) = next (chars name) rest := by
  have ht : quote name ++ rest = '"' :: (chars name ++ '"' :: rest) := by simp [quote]
  rw [ht, outcome_quoted next h]

lemma outcome_quote_nonempty {name : String} (h : IsQuotable name)
    (next : List Char → List Char → Option γ) (rest : List Char) :
    quotedNonempty.outcome next (quote name ++ rest) = next (chars name) rest := by
  have ht : quote name ++ rest = '"' :: (chars name ++ '"' :: rest) := by simp [quote]
  rw [ht, outcome_quotedNonempty next h.2 h.1]

lemma readsItems_names {connector : String} (hc : connector ∈ ["or", "and"]) :
    ReadsItems connector quotedNonempty quote IsQuotable (fun _ _ _ => False) :=
  readsItems_quoted hc (fun h _ => outcome_quote_nonempty h) outcome_quotedNonempty_of_ne
    (Takes.quotedNonempty fun _ => trivial)

lemma readsItems_values {connector : String} (hc : connector ∈ ["or", "and"]) :
    ReadsItems connector quoted quote ('"' ∉ chars ·) (fun _ _ _ => False) :=
  readsItems_quoted hc (fun h _ => outcome_quote h) outcome_quoted_of_ne (Takes.quoted fun _ => trivial)

lemma outcome_quotedList {connector : String} (hc : connector ∈ ["or", "and"])
    {particle : Reader (List Char)} {P : String → Prop}
    (hr : ReadsItems connector particle quote P (fun _ _ _ => False))
    {names : List String} (hne : names ≠ []) (hP : ∀ name ∈ names, P name)
    (hq : ∀ name ∈ names, '"' ∉ chars name) {after : List Char} (ha : EndsList connector after)
    (next : List String → List Char → Option γ) {c : γ} (hn : next names after = some c) :
    (quotedList connector particle).outcome (fun read text => next (quotedItems read) text)
      (text connector (names.map quote) ++ after) = some c := by
  have hconnector : '"' ∉ chars connector := by
    rcases List.mem_pair.mp hc with rfl | rfl <;> simp
  have hitems := quotedItems_text hconnector hq
  rw [quotedList, outcome_snd_withText]
  apply hr.outcome_list_of_none hne hP ha
  · simpa [hitems] using hn
  · exact along_of_forall (fun _ _ _ _ _ h => h.elim) false

lemma outcome_quotedNames {connector : String} (hc : connector ∈ ["or", "and"]) {names : List String}
    (hne : names ≠ []) (hq : ∀ name ∈ names, IsQuotable name) {after : List Char}
    (ha : EndsList connector after) (next : List String → List Char → Option γ) {c : γ}
    (hn : next names after = some c) :
    (quotedList connector quotedNonempty).outcome (fun read text => next (quotedItems read) text)
      (text connector (names.map quote) ++ after) = some c :=
  outcome_quotedList hc (readsItems_names hc) hne hq (fun name h => (hq name h).2) ha next hn

lemma outcome_quotedValues {connector : String} (hc : connector ∈ ["or", "and"]) {values : List String}
    (hne : values ≠ []) (hq : ∀ value ∈ values, '"' ∉ chars value) {after : List Char}
    (ha : EndsList connector after) (next : List String → List Char → Option γ) {c : γ}
    (hn : next values after = some c) :
    (quotedList connector quoted).outcome (fun read text => next (quotedItems read) text)
      (text connector (values.map quote) ++ after) = some c :=
  outcome_quotedList hc (readsItems_values hc) hne hq hq ha next hn

end

/-! Fields. -/

@[simp] lemma ofList_chars (name : String) : String.ofList (chars name) = name := by
  rw [chars_eq_toList, String.ofList_toList]

@[simp] lemma solid_quote (name : String) (rest : List Char) : Solid (quote name ++ rest) := by
  simp [quote]

@[simp] lemma solid_article (w : Wording) (word : String) (rest : List Char) :
    Solid (w.article word ++ rest) := by
  simp [Wording.article]

lemma solid_quotes (connector : String) {names : List String} (hne : names ≠ []) (rest : List Char) :
    Solid (Enumeration.text connector (names.map quote) ++ rest) := by
  obtain ⟨name, others, rfl⟩ := List.exists_cons_of_ne_nil hne
  rw [List.map_cons, Enumeration.text, List.append_assoc]
  exact solid_quote name _

lemma outcome_fieldNames {fields : FieldNames}
    (hf : fields.names ≠ [] ∧ ∀ name ∈ fields.names, IsQuotable name) {rest : List Char}
    (ha : Enumeration.EndsList "or" rest) {next : FieldNames → List Char → Option γ} {c : γ}
    (hn : next fields rest = some c) : fieldNames.outcome next (fields.text ++ rest) = some c := by
  cases fields with
  | single name =>
    have hq := hf.2 name (List.mem_singleton_self name)
    have ht : (FieldNames.single name).text ++ rest = chars "field named " ++ (quote name ++ rest) := by
      simp [FieldNames.text]
    rw [ht]
    simp [fieldNames, phrase, outcome_quote_nonempty hq, hn]
  | oneOf names =>
    have hne : names ≠ [] := hf.1
    have hs := solid_quotes "or" hne rest
    have hlist := outcome_quotedNames (by simp) hne hf.2 ha (fun names => next (.oneOf names)) hn
    have ht : (FieldNames.oneOf names).text ++ rest =
        chars "field named one of " ++ (Enumeration.text "or" (names.map quote) ++ rest) := by
      simp [FieldNames.text]
    rw [ht]
    simp [fieldNames, phrase, hs, outcome_quotedNonempty_of_ne, hlist]

/-! Predicates. -/

/-- A relation is read as it is written, unless the words behind it make a longer one of it. -/
lemma outcome_relation (r : Relation) {next : Relation → List Char → Option γ} {rest : List Char} {c : γ}
    (hr : ¬chars "or equal to" <+: rest) (hn : next r (' ' :: rest) = some c) :
    (firstOf (Relation.all.map fun relation => keyword relation.words relation)).outcome next
      (chars r.words ++ ' ' :: rest) = some c := by
  have hor (next : Unit → List Char → Option γ) :
      (literal ['o', 'r', ' ', 'e', 'q', 'u', 'a', 'l', ' ', 't', 'o']).outcome next rest = none :=
    outcome_literal_of_not_starting next (by simpa using hr)
  cases r <;> simp [Relation.all, Relation.words, keyword, hor, hn]

lemma outcome_quoted_token {token content : List Char} (hq : '"' ∉ content)
    (ht : token = '"' :: content ++ ['"']) (next : List Char → List Char → Option γ) (rest : List Char) :
    (Prod.snd <$> withText quoted).outcome next (token ++ rest) = next token rest := by
  have hr : token ++ rest = '"' :: (content ++ '"' :: rest) := by simp [ht]
  rw [outcome_snd_withText, hr, outcome_quoted _ hq, ← hr]
  simp

/-- What ends the clauses of a constraint: the full stop, or a semicolon and a blank. -/
def EndsClause (text : List Char) : Prop :=
  ∃ d more, text = d :: more ∧ (d = '.' ∨ d = ';') ∧ ∀ c ∈ more.head?, isSpace c = true

lemma EndsClause.goesOn {text : List Char} (h : EndsClause text) : GoesOn text := by
  obtain ⟨d, more, rfl, rfl | rfl, -⟩ := h <;> simp

lemma outcome_target {target : String} (ht : IsToken target) {rest : List Char} (hrest : EndsClause rest)
    {next : List Char → List Char → Option γ} {c : γ}
    (hstop : ∀ read text, (∀ c ∈ text.head?, isSpace c = true) → next read text = none)
    (hn : next (chars target) rest = some c) :
    (firstOf [Prod.snd <$> withText quoted, run1 fun c => !isSpace c]).outcome next (chars target ++ rest) =
      some c := by
  rw [outcome_firstOf_cons, outcome_firstOf_cons]
  rcases ht with ⟨content, hq, ht⟩ | ⟨hne, hq, ht⟩
  · rw [outcome_quoted_token hq ht, hn]
    rfl
  · obtain ⟨first, others, he⟩ := List.exists_cons_of_ne_nil hne
    rw [he, List.mem_cons, not_or] at hq
    rw [he, Spaceless, List.forall_mem_cons] at ht
    obtain ⟨d, more, rfl, hd, hmore⟩ := hrest
    have hds : (!isSpace d) = true := by rcases hd with rfl | rfl <;> decide
    have hrun : (run fun c => !isSpace c).outcome (fun cs text => next (first :: cs) text)
        (others ++ d :: more) = some c := by
      apply outcome_run_back
      · intro c h
        simp [ht.2 c h]
      · exact hds
      · intro c h
        simp [hmore c h]
      · exact hstop _ _ hmore
      · rwa [he] at hn
    rw [he, List.cons_append, outcome_snd_withText, outcome_quoted_of_ne _ _ (Ne.symm hq.1), Option.none_or]
    simp only [run1, outcome_bind, outcome_char_cons, ht.1, outcome_pure]
    rw [Bool.not_false, if_pos rfl, hrun]
    rfl

lemma solid_token {token : String} (ht : IsToken token) (rest : List Char) : Solid (chars token ++ rest) := by
  rcases ht with ⟨content, -, ht⟩ | ⟨hne, -, ht⟩
  · rw [ht]
    simp
  · exact ht.solid.append hne rest

/-- A token in front of the end of a clause does not make another relation of the words in front of it. -/
lemma not_starts_with_or_equal {token : String} (ht : IsToken token) {rest : List Char} (hrest : EndsClause rest) :
    ¬chars "or equal to" <+: chars token ++ rest := by
  rintro ⟨behind, hb⟩
  obtain ⟨d, more, rfl, hd, -⟩ := hrest
  have hw : chars "or" ++ ' ' :: (chars "equal to" ++ behind) = chars token ++ d :: more := by
    simpa using hb
  rcases ht with ⟨content, -, ht⟩ | ⟨-, -, ht⟩
  · rw [ht] at hw
    simp at hw
  · rcases List.append_eq_append_iff.mp hw with ⟨u, hu, ht'⟩ | ⟨u, hu, ht'⟩
    · cases u with
      | nil => rcases hd with rfl | rfl <;> simp at ht'
      | cons c u =>
        obtain rfl : ' ' = c := (List.cons_eq_cons.mp ht').1
        exact absurd (ht ' ' (by rw [hu]; simp)) (by decide)
    · cases u with
      | nil => rcases hd with rfl | rfl <;> simp at ht'
      | cons c u =>
        obtain rfl : d = c := (List.cons_eq_cons.mp ht').1
        have hm : d ∈ chars "or" := by rw [hu]; simp
        rcases hd with rfl | rfl <;> revert hm <;> decide

section

variable {rest : List Char} (hrest : EndsClause rest)

include hrest

lemma outcome_relational (r : Relation) {target : String} (ht : IsToken target)
    {next : Predicate → List Char → Option γ} {c : γ}
    (hstop : ∀ read text, (∀ c ∈ text.head?, isSpace c = true) → next read text = none)
    (hn : next (.relation r target) rest = some c) :
    relational.outcome next (chars r.words ++ ' ' :: (chars target ++ rest)) = some c := by
  simp only [relational, outcome_bind, outcome_pure]
  apply outcome_relation r (not_starts_with_or_equal ht hrest)
  rw [outcome_blanks_cons _ (solid_token ht rest)]
  apply outcome_target ht hrest
  · exact fun _ text h => hstop _ text h
  · rw [ofList_chars, hn]

lemma outcome_valueList {values : List String} (hne : values ≠ [])
    (hv : ∀ value ∈ values, '"' ∉ chars value) {next : Predicate → List Char → Option γ} {c : γ}
    (hn : next (.oneOf values) rest = some c) :
    valueList.outcome next (chars "one of " ++ (Enumeration.text "or" (values.map quote) ++ rest)) =
      some c := by
  have hs := solid_quotes "or" hne rest
  have hends := Enumeration.endsList_of_goesOn "or" hrest.goesOn
  have hlist := outcome_quotedValues (by simp) hne hv hends (fun values => next (.oneOf values)) hn
  simp [valueList, phrase, hs, hlist]

lemma outcome_predicate {p : Predicate} (hp : p.IsWritable) {next : Predicate → List Char → Option γ} {c : γ}
    (hstop : ∀ read text, (∀ c ∈ text.head?, isSpace c = true) → next read text = none)
    (hn : next p rest = some c) : predicate.outcome next (p.text ++ rest) = some c := by
  cases p with
  | relation r target =>
    have hs : Solid (chars r.words ++ ' ' :: (chars target ++ rest)) := by
      cases r <;> simp [Relation.words]
    have hr := outcome_relational hrest r hp hstop hn
    have ht : (Predicate.relation r target).text ++ rest =
        chars " whose value MUST be " ++ (chars r.words ++ ' ' :: (chars target ++ rest)) := by
      simp [Predicate.text]
    rw [ht]
    simp only [chars_eq_toList] at hs hr
    simp [predicate, phrase, hs, hr]
  | oneOf values =>
    have hl := outcome_valueList hrest hp.1 hp.2 hn
    have ht : (Predicate.oneOf values).text ++ rest = chars " whose value MUST be " ++
        (chars "one of " ++ (Enumeration.text "or" (values.map quote) ++ rest)) := by
      simp [Predicate.text]
    rw [ht]
    -- no relation starts with "one"
    simpa [predicate, phrase, relational, Relation.all, keyword, Relation.words] using hl

lemma outcome_optional_predicate {p : Option Predicate} (hp : ∀ q ∈ p, q.IsWritable)
    {next : Option Predicate → List Char → Option γ} {c : γ}
    (hstop : ∀ read text, (∀ c ∈ text.head?, isSpace c = true) → next read text = none)
    (hn : next p rest = some c) :
    (optional predicate).outcome next ((p.map Predicate.text).getD [] ++ rest) = some c := by
  rw [outcome_optional]
  cases p with
  | none =>
    have hs : Solid rest := hrest.goesOn.solid
    simp [predicate, hs, hn]
  | some p =>
    rw [Option.map_some, Option.getD_some, outcome_predicate hrest (hp p rfl) _ hn]
    · rfl
    · exact fun _ text h => hstop _ text h

end

/-! Child clauses. -/

lemma outcome_childClause (w : Wording) {clause : ChildClause} (hq : IsQuotable clause.role)
    {next : ChildClause → List Char → Option γ} {rest : List Char} {c : γ} (hn : next clause rest = some c) :
    childClause.outcome next (w.childClause clause ++ rest) = some c := by
  cases clause with
  | value role =>
    have hq' : IsQuotable role := hq
    simp [Wording.childClause, childClause, phrase, outcome_quote_nonempty hq', hn]
  | each role =>
    have hq' : IsQuotable role := hq
    cases hw : w.asFields <;>
      simp [Wording.childClause, childClause, phrase, hw, outcome_quote_nonempty hq', hn]

lemma outcome_optional_childClause (w : Wording) {p : Option ChildClause} (hp : ∀ q ∈ p, IsQuotable q.role)
    {next : Option ChildClause → List Char → Option γ} {rest : List Char} {c : γ}
    (hn : next p ('.' :: rest) = some c) :
    (optional childClause).outcome next ((p.map w.childClause).getD [] ++ '.' :: rest) = some c := by
  cases p with
  | none => simp [childClause, hn]
  | some clause =>
    rw [outcome_optional, Option.map_some, Option.getD_some, outcome_childClause w (hp clause rfl) hn]
    rfl

/-! The end. -/

lemma outcome_ending (a : γ) : ending.outcome (fun _ text => ended a text) ['.'] = some a := by
  simp [ending, ended]

/-! Conditions. -/

/-- The value that a field is compared with, as the grammar reads it. -/
def fieldToken : Reader (List Char) :=
  firstOf [
    Prod.snd <$> withText quoted,
    do
      let first ← char fun c => c ≠ '"' && !isSpace c
      let others ← span fun c => !isSpace c
      pure (first :: others)]

lemma outcome_fieldToken {token : String} (ht : IsToken token) {next : List Char → List Char → Option γ}
    {rest : List Char} {c : γ} (hn : next (chars token) (' ' :: rest) = some c) :
    fieldToken.outcome next (chars token ++ ' ' :: rest) = some c := by
  rw [fieldToken, outcome_firstOf_cons, outcome_firstOf_cons]
  rcases ht with ⟨content, hq, ht⟩ | ⟨hne, hq, ht⟩
  · rw [outcome_quoted_token hq ht, hn]
    rfl
  · obtain ⟨first, others, he⟩ := List.exists_cons_of_ne_nil hne
    rw [he, List.mem_cons, not_or] at hq
    rw [he, Spaceless, List.forall_mem_cons] at ht
    have hfirst : (decide (first ≠ '"') && !isSpace first) = true := by simp [Ne.symm hq.1, ht.1]
    have hothers : ∀ c ∈ others, (!isSpace c) = true := by
      intro c h
      simp [ht.2 c h]
    have hblank : ∀ c ∈ (' ' :: rest).head?, (!isSpace c) = false := by simp
    rw [he] at hn ⊢
    rw [List.cons_append, outcome_snd_withText, outcome_quoted_of_ne _ _ (Ne.symm hq.1), Option.none_or]
    simp only [outcome_bind, outcome_char_cons, outcome_pure]
    rw [if_pos hfirst, outcome_span_append _ _ hothers hblank, hn]
    rfl

lemma valueCondition_eq : valueCondition = (do
    literal (chars "whose")
    blanks
    let field ← quotedNonempty
    blanks
    phrase ["field's", "value", "is"]
    blanks
    let token ← fieldToken
    blanks
    pure (.fieldValue (String.ofList field) (String.ofList token))) :=
  rfl

lemma outcome_valueCondition {field token : String} (hf : IsQuotable field) (ht : IsToken token)
    (next : RoleCondition → List Char → Option γ) {rest : List Char} (hs : Solid rest) {c : γ}
    (hn : next (.fieldValue field token) rest = some c) : valueCondition.outcome next
      (chars "whose " ++ (quote field ++ (chars " field's value is " ++ (chars token ++ ' ' :: rest)))) =
        some c := by
  have hst := solid_token ht (' ' :: rest)
  have hread : fieldToken.outcome (fun read text => blanks.outcome (fun _ text =>
      next (.fieldValue field (String.ofList read)) text) text) (chars token ++ ' ' :: rest) = some c :=
    outcome_fieldToken ht (by rw [outcome_blanks_cons _ hs, ofList_chars, hn])
  simp only [chars_eq_toList] at hst hread
  rw [valueCondition_eq]
  simp [phrase, hst, outcome_quote_nonempty hf, hread]

lemma outcome_presenceCondition (w : Wording) {field : String} (hf : IsQuotable field)
    (next : RoleCondition → List Char → Option γ) {rest : List Char} (hs : Solid rest) {c : γ}
    (hn : next (.fieldPresence field) rest = some c) : presenceCondition.outcome next
      (chars "with " ++ (w.article field ++ (quote field ++ (chars " field " ++ rest)))) = some c := by
  simp [presenceCondition, hs, outcome_quote_nonempty hf, hn]

/-- Behind the condition a role definition goes on with "is", as no condition starts. -/
lemma outcome_condition (w : Wording) {condition : RoleCondition} (hc : condition.IsWritable)
    (next : RoleCondition → List Char → Option γ) {rest : List Char} {c : γ}
    (hn : next condition ('i' :: rest) = some c) :
    (optional (firstOf [valueCondition, presenceCondition])).outcome
      (fun read text => next (read.getD .always) text) (w.condition condition ++ 'i' :: rest) = some c := by
  have hs : Solid ('i' :: rest) := by simp
  rw [outcome_optional, outcome_firstOf_cons, outcome_firstOf_cons]
  cases condition with
  | always => simp [Wording.condition, valueCondition, presenceCondition, hn]
  | fieldValue field token =>
    have ht : w.condition (.fieldValue field token) ++ 'i' :: rest = chars "whose " ++ (quote field ++
        (chars " field's value is " ++ (chars token ++ ' ' :: 'i' :: rest))) := by
      simp [Wording.condition]
    rw [ht, outcome_valueCondition hc.1 hc.2 (fun read text => next ((some read).getD .always) text) hs hn]
    rfl
  | fieldPresence field =>
    have ht : w.condition (.fieldPresence field) ++ 'i' :: rest = chars "with " ++ (w.article field ++
        (quote field ++ (chars " field " ++ 'i' :: rest))) := by
      simp [Wording.condition]
    have hv : valueCondition.outcome (fun read text => next ((some read).getD .always) text)
        (w.condition (.fieldPresence field) ++ 'i' :: rest) = none := by
      simp [Wording.condition, valueCondition]
    rw [hv, ht, outcome_presenceCondition w hc (fun read text => next ((some read).getD .always) text) hs hn]
    rfl

end Grammar

end ProseSchema
