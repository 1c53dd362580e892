import ProseSchema.Proofs.SentenceReading
import ProseSchema.Proofs.TakenText

/-!
# Lines read back

Parsing undoes writing: the line that says a sentence is read as this sentence, unless a longer known role is read
in place of one of its roles. Which form a line has is decided by its start, so that a line of another form must
not start as a constraint does: its modal verb, if it has one, is not followed by what a constraint says.
-/

namespace ProseSchema

open Reader

/-! Where a word can stand. -/

/-- A word stands on one side of a character that it does not hold. -/
lemma infix_append_cons {word x y : List Char} {d : Char} (hd : d ∉ word) (h : word <:+: x ++ d :: y) :
    word <:+: x ∨ word <:+: y := by
  obtain ⟨before, behind, h⟩ := h
  rcases List.append_eq_append_iff.mp h with ⟨u, hx, -⟩ | ⟨u, hx, hy⟩
  · exact .inl ⟨before, u, hx.symm⟩
  · cases u with
    | nil =>
      rw [List.append_nil] at hx
      exact .inl ⟨before, [], by rw [List.append_nil, hx]⟩
    | cons c u =>
      obtain ⟨rfl, hb⟩ := List.cons_eq_cons.mp hy
      rcases List.append_eq_append_iff.mp hx with ⟨v, -, hword⟩ | ⟨v, -, hu⟩
      · exact absurd (by rw [hword]; simp) hd
      · cases v with
        | nil => exact absurd (by rw [← List.nil_append word, ← hu]; simp) hd
        | cons e v =>
          obtain ⟨-, hv⟩ := List.cons_eq_cons.mp hu
          exact .inr ⟨v, behind, by rw [hb, hv]; rfl⟩

section

variable {verb : String} (hv : verb ∈ ["MUST", "MAY"])

include hv

lemma not_mem_verb {c : Char} (hc : c ∈ [' ', '"']) : c ∉ chars verb := by
  rcases List.mem_pair.mp hv with rfl | rfl <;> rcases List.mem_pair.mp hc with rfl | rfl <;> decide

lemma not_infix_subject (w : Wording) {role : String} (h : IsRoleName role) :
    ¬chars verb <:+: w.subject role := by
  have hs : w.subject role = ('A' :: if w.an role then ['n'] else []) ++ ' ' :: (chars role ++ ' ' :: []) := by
    simp [Wording.subject]
  intro hi
  rw [hs] at hi
  have hblank := not_mem_verb hv (c := ' ') (by simp)
  rcases infix_append_cons hblank hi with hi | hi
  · revert hi
    rcases List.mem_pair.mp hv with rfl | rfl <;> cases w.an role <;> decide
  · rcases infix_append_cons hblank hi with hi | hi
    · rcases List.mem_pair.mp hv with rfl | rfl
      · exact h.must hi
      · exact h.may hi
    · revert hi
      rcases List.mem_pair.mp hv with rfl | rfl <;> decide

/-- In a line the modal verb stands behind the subject. -/
lemma exists_behind_subject (w : Wording) {role : String} (h : IsRoleName role) {taken rest text : List Char}
    (hp : chars verb <+: rest) (he : w.subject role ++ text = taken ++ rest) :
    ∃ u, text = u ++ rest ∧ taken = w.subject role ++ u := by
  rcases List.append_eq_append_iff.mp he with ⟨u, ht, hr⟩ | ⟨u, hs, hr⟩
  · exact ⟨u, hr, ht⟩
  · by_cases hu : u = []
    · subst hu
      exact ⟨[], hr.symm, by rw [hs, List.append_nil, List.append_nil]⟩
    · exfalso
      rcases List.prefix_or_prefix_of_prefix hp (hr ▸ List.prefix_append u text) with hpu | hup
      · exact not_infix_subject hv w h (hpu.isInfix.trans ⟨taken, [], by rw [hs, List.append_nil]⟩)
      · apply not_mem_verb hv (c := ' ') (by simp)
        have hl : u.getLast? = some ' ' := by
          rw [← List.getLast?_append_of_ne_nil taken hu, ← hs]
          exact List.getLast?_concat
        exact hup.subset (List.mem_of_getLast? hl)

/-- A modal verb in front of which no quote stands comes before the first quote. -/
lemma exists_before_quote {u rest words text : List Char} (hp : chars verb <+: rest) (hu : '"' ∉ u)
    (he : words ++ '"' :: text = u ++ rest) : ∃ more, words = u ++ (chars verb ++ more) := by
  obtain ⟨r, rfl⟩ := hp
  rw [← List.append_assoc] at he
  rcases List.append_eq_append_iff.mp he with ⟨t, ht, hr⟩ | ⟨t, ht, -⟩
  · cases t with
    | nil => exact ⟨[], by rw [List.append_nil, ← List.append_nil words, ht]⟩
    | cons c t =>
      obtain ⟨rfl, -⟩ := List.cons_eq_cons.mp hr
      have hm : '"' ∈ u ++ chars verb := by rw [ht]; simp
      rcases List.mem_append.mp hm with hm | hm
      · exact absurd hm hu
      · exact absurd hm (not_mem_verb hv (by simp))
  · exact ⟨t, by rw [ht, List.append_assoc]⟩

end

namespace Grammar

/-! Lines that do not start as a constraint or as a choice of fields. -/

section

variable {g : Grammar} (hg : ∀ name ∈ g.roles, '"' ∉ chars name)

include hg

lemma avoids_oneOf : Avoids '"' (Enumeration.oneOf g.roles) :=
  takes_oneOf hg List.not_mem_nil

lemma avoids_subject : Avoids '"' g.subject := by
  have ha : Avoids '"' (literal ['A']) := Takes.literal (by decide)
  have hn : Avoids '"' (literal ['n']) := Takes.literal (by decide)
  have hb : Avoids '"' blanks := Avoids.blanks isSpace_quote
  exact ha.bind fun _ => hn.optional.bind fun _ => hb.bind fun _ =>
    (avoids_oneOf hg).bind fun _ => hb.bind fun _ => Takes.pure _

lemma avoids_roleList {connector : String} (hc : '"' ∉ chars connector) : Avoids '"' (g.roleList connector) := by
  have hb : Avoids '"' blanks := Avoids.blanks isSpace_quote
  have hcomma : Avoids '"' (literal [',']) := Takes.literal (by decide)
  have hitem : Avoids '"' (Enumeration.item true (Enumeration.oneOf g.roles)) :=
    (Avoids.article (by decide) isSpace_quote).bind fun _ => avoids_oneOf hg
  have hmiddle : Avoids '"' (Enumeration.middle (Enumeration.item true (Enumeration.oneOf g.roles))) :=
    (Takes.many1 (hcomma.bind fun _ => hb.bind fun _ => hitem)).bind fun _ =>
      hcomma.bind fun _ => Takes.pure _
  have htail : Avoids '"' (Enumeration.tail connector (Enumeration.item true (Enumeration.oneOf g.roles))) :=
    hmiddle.optional.bind fun _ => hb.bind fun _ => (Takes.literal hc).bind fun _ => hb.bind fun _ =>
      hitem.bind fun _ => Takes.pure _
  exact (Takes.withText (hitem.bind fun _ => htail.optional.bind fun _ => Takes.pure _)).map _

lemma avoids_exclusion : Avoids '"' g.exclusion := by
  have hb : Avoids '"' blanks := Avoids.blanks isSpace_quote
  have hwords : Avoids '"' (phrase ["which", "is", "not"]) := Avoids.phrase (by decide) isSpace_quote
  exact hwords.bind fun _ => hb.bind fun _ => (avoids_roleList hg (by decide)).bind fun _ =>
    hb.bind fun _ => Takes.pure _

/-- A text starts as a constraint only if its modal phrase stands before any quote. -/
lemma constraintStart_eq_nil {text : List Char} (h : ∀ taken rest, text = taken ++ rest → '"' ∉ taken →
    ∀ role excluded, modalPhrase role excluded rest = []) : g.constraintStart text = [] := by
  rw [List.eq_nil_iff_forall_not_mem]
  intro way hw
  rw [constraintStart_eq] at hw
  obtain ⟨first, hfirst, hw⟩ := mem_bind.mp hw
  obtain ⟨second, hsecond, hw⟩ := mem_bind.mp hw
  obtain ⟨u, hu, hqu⟩ := avoids_subject hg text first hfirst
  obtain ⟨v, hv, hqv⟩ := (avoids_exclusion hg).optional first.2 second hsecond
  have ht : text = (u ++ v) ++ second.2 := by rw [hu, hv, List.append_assoc]
  have hnil := h (u ++ v) second.2 ht (by simp [hqu, hqv]) first.1 (second.1.getD [])
  exact absurd hw (by rw [hnil]; exact List.not_mem_nil)

/-- A text starts as a choice of fields only if its modal verb stands before any quote. -/
lemma onlyOneStart_eq_nil {text : List Char} (h : ∀ taken rest, text = taken ++ rest → '"' ∉ taken →
    ¬chars "MUST" <+: rest) : g.onlyOneStart text = [] := by
  rw [List.eq_nil_iff_forall_not_mem]
  intro way hw
  obtain ⟨first, hfirst, hw⟩ := mem_bind.mp hw
  obtain ⟨u, hu, hqu⟩ := avoids_subject hg text first hfirst
  obtain ⟨second, hsecond, -⟩ := mem_bind.mp hw
  obtain ⟨third, hthird, -⟩ := mem_bind.mp hsecond
  rw [literal, if_neg] at hthird
  · exact List.not_mem_nil hthird
  · rw [List.isPrefixOf_iff_prefix]
    exact h u first.2 hu hqu

end

/-! The end of a definition. -/

lemma takes_condition : Takes (fun _ => True) (optional (firstOf [valueCondition, presenceCondition])) := by
  have hliteral (word : List Char) : Takes (fun _ => True) (literal word) := Takes.literal trivial
  have hphrase (words : List String) : Takes (fun _ => True) (phrase words) :=
    Takes.phrase (fun _ _ => trivial) fun _ _ => trivial
  have hb : Takes (fun _ => True) blanks := Takes.blanks fun _ _ => trivial
  have ha : Takes (fun _ => True) Enumeration.article := Takes.article trivial trivial fun _ _ => trivial
  have hname : Takes (fun _ => True) quotedNonempty := Takes.quotedNonempty fun _ => trivial
  have htoken : Takes (fun _ => True) (firstOf [Prod.snd <$> withText quoted, do
      let first ← char fun c => c ≠ '"' && !isSpace c
      let others ← span fun c => !isSpace c
      pure (first :: others)]) := by
    apply Takes.firstOf
    simp only [List.forall_mem_cons]
    exact ⟨(Takes.quoted fun _ => trivial).withText.map _,
      (Takes.char fun _ _ => trivial).bind fun _ => (Takes.span fun _ _ => trivial).bind fun _ => Takes.pure _,
      List.forall_mem_nil _⟩
  apply Takes.optional
  apply Takes.firstOf
  simp only [List.forall_mem_cons]
  exact ⟨(hliteral _).bind fun _ => hb.bind fun _ => hname.bind fun _ => hb.bind fun _ => (hphrase _).bind fun _ =>
      hb.bind fun _ => htoken.bind fun _ => hb.bind fun _ => Takes.pure _,
    (hliteral _).bind fun _ => hb.bind fun _ => ha.bind fun _ => hname.bind fun _ => hb.bind fun _ =>
      (hliteral _).bind fun _ => hb.bind fun _ => Takes.pure _,
    List.forall_mem_nil _⟩

lemma takes_subject (g : Grammar) : Takes (fun _ => True) g.subject := by
  have hb : Takes (fun _ => True) blanks := Takes.blanks fun _ _ => trivial
  have hrole : Takes (fun _ => True) (Enumeration.oneOf g.roles) := takes_oneOf (fun _ _ => trivial) trivial
  exact (Takes.literal trivial).bind fun _ => (Takes.literal trivial).optional.bind fun _ => hb.bind fun _ =>
    hrole.bind fun _ => hb.bind fun _ => Takes.pure _

/-- A line that is a definition of a role ends as one. -/
lemma isSome_definitionTail {g : Grammar} {line : List Char} {d : RoleDefinition}
    (h : whole? g.roleDefinition line = some d) : (search? definitionTail line).isSome = true := by
  obtain ⟨subject, hsubject, h⟩ := mem_bind.mp (mem_of_whole? h)
  obtain ⟨condition, hcondition, h⟩ := mem_bind.mp h
  obtain ⟨verb, hverb, h⟩ := mem_bind.mp h
  obtain ⟨gap, hgap, h⟩ := mem_bind.mp h
  obtain ⟨article, harticle, h⟩ := mem_bind.mp h
  obtain ⟨name, hname, h⟩ := mem_bind.mp h
  obtain ⟨last, hlast, h⟩ := mem_bind.mp h
  have hrest : last.2 = [] := (Prod.mk.inj (List.mem_singleton.mp h)).2.symm
  have hend : ((), []) ∈ atEnd last.2 := by
    rw [hrest]
    exact List.mem_singleton_self _
  have htail : ((), []) ∈ definitionTail condition.2 :=
    mem_bind.mpr ⟨verb, hverb, mem_bind.mpr ⟨gap, hgap, mem_bind.mpr ⟨article, harticle, mem_bind.mpr
      ⟨name, mem_quoted_of_mem_quotedNonempty hname, mem_bind.mpr ⟨last, hlast, hend⟩⟩⟩⟩⟩
  have hsuffix : condition.2 <:+ line := (takes_condition.suffix hcondition).trans ((takes_subject g).suffix hsubject)
  rw [Option.isSome_iff_ne_none]
  intro hnone
  rw [search?_eq_none_iff] at hnone
  rw [hnone _ hsuffix] at htail
  exact absurd htail List.not_mem_nil

/-- To look at the end of a line before it is read as a definition of a role changes nothing. -/
lemma parse?_eq (g : Grammar) (line : List Char) : g.parse? line =
    if g.constraintStart line ≠ [] then (whole? g.constraint line).map .constraint
    else if g.onlyOneStart line ≠ [] then whole? g.onlyOneOf line
    else (whole? g.eachOf line).or ((whole? g.roleDefinition line).map .roleDefinition) := by
  have htail : (if (search? definitionTail line).isSome then (whole? g.roleDefinition line).map .roleDefinition
      else none) = (whole? g.roleDefinition line).map Sentence.roleDefinition := by
    cases hd : whole? g.roleDefinition line with
    | none => exact ite_self none
    | some d => rw [if_pos (isSome_definitionTail hd)]
  rw [parse?, htail]
  simp only [isSome_first?_iff]

section

variable {roles : List String} (hroles : ∀ role ∈ roles, IsRoleName role) (w : Wording)

include hroles

lemma quoteless_roles : ∀ name ∈ (ofRoles roles).roles, '"' ∉ chars name :=
  fun name h => (hroles name (mem_ofRoles.mp h)).quoteless

/-- In a definition of a role no modal verb stands before the first quote. -/
lemma not_verb_in_roleDefinition {d : RoleDefinition} (hr : d.role ∈ roles) {verb : String}
    (hv : verb ∈ ["MUST", "MAY"]) {taken rest : List Char} (ht : w.roleDefinition d = taken ++ rest)
    (hq : '"' ∉ taken) : ¬chars verb <+: rest := by
  intro hp
  obtain ⟨words, hwords, text, htext⟩ := exists_definitionWords w d
  have hline : w.subject d.role ++ (words ++ '"' :: text) = taken ++ rest := by
    rw [← ht, ← htext]
    simp [Wording.roleDefinition]
  obtain ⟨u, hu, htaken⟩ := exists_behind_subject hv w (hroles d.role hr) hp hline
  have hqu : '"' ∉ u := fun h => hq (by rw [htaken]; exact List.mem_append_right _ h)
  obtain ⟨more, hmore⟩ := exists_before_quote hv hp hqu hu
  have hno : ∀ words ∈ definitionWords, 'M' ∉ words := by decide
  have hm : 'M' ∈ chars verb := by rcases List.mem_pair.mp hv with rfl | rfl <;> decide
  exact hno words hwords (by rw [hmore]; simp only [List.mem_append]; exact .inr (.inl hm))

/-- The only modal verb of a choice of fields is followed by other words than those of a constraint. -/
lemma modalPhrase_in_onlyOneOf {role : String} (hr : role ∈ roles) {fields : List String} (hne : fields ≠ [])
    {taken rest : List Char} (ht : w.onlyOneOf role fields = taken ++ rest) (hq : '"' ∉ taken)
    (subject : String) (excluded : List String) : modalPhrase subject excluded rest = [] := by
  by_cases hverb : ∀ verb ∈ ["MUST", "MAY"], ¬chars verb <+: rest
  · exact modalPhrase_eq_nil hverb subject excluded
  · simp only [not_forall, not_not] at hverb
    obtain ⟨verb, hv, hp⟩ := hverb
    obtain ⟨text, htext⟩ : ∃ text, Enumeration.text "and" (fields.map quote) ++ ['.'] = '"' :: text := by
      obtain ⟨field, others, rfl⟩ := List.exists_cons_of_ne_nil hne
      simp [Enumeration.text, quote]
    have hline : w.subject role ++ (chars "MUST have only one of " ++ '"' :: text) = taken ++ rest := by
      rw [← ht, ← htext]
      simp [Wording.onlyOneOf]
    obtain ⟨u, hu, htaken⟩ := exists_behind_subject hv w (hroles role hr) hp hline
    have hqu : '"' ∉ u := fun h => hq (by rw [htaken]; exact List.mem_append_right _ h)
    obtain ⟨more, hmore⟩ := exists_before_quote hv hp hqu hu
    have hm : 'M' ∈ chars verb := by rcases List.mem_pair.mp hv with rfl | rfl <;> decide
    cases u with
    | nil =>
      rw [List.nil_append] at hu
      apply eq_nil_of_outcome
      rw [← hu]
      simp [modalPhrase, modal, keyword, Enumeration.article]
    | cons c u =>
      have hwords : chars "UST have only one of " = u ++ (chars verb ++ more) :=
        (List.cons_eq_cons.mp hmore).2
      have hno : 'M' ∉ chars "UST have only one of " := by decide
      have hin : 'M' ∈ chars "UST have only one of " := by
        rw [hwords, List.mem_append, List.mem_append]
        exact .inr (.inl hm)
      exact absurd hin hno

/-- Parsing undoes writing: a sentence over known roles, whose lists name the longest roles that stand in them, is
read back from its line just where no longer role is read in place of its subject or of a role that it lists. -/
theorem parse_line {s : Sentence} (hs : s.IsOver roles) (hl : s.ListsLongest w roles) :
    (ofRoles roles).parse? (w.line s) = some s ↔ s.IsClear w roles := by
  have hg := quoteless_roles hroles
  rw [parse?_eq]
  simp only [whole?_eq_outcome]
  cases s with
  | constraint s =>
    have hread := gives_constraint hroles w hs hl
    have hstart : (ofRoles roles).constraintStart (w.constraint s) ≠ [] := by
      obtain ⟨other, hother⟩ := Option.isSome_iff_exists.mp hread.isSome
      rw [constraint, outcome_bind] at hother
      exact ne_nil_of_outcome hother
    have hown : IsOwn roles (ofRoles roles).constraintBehind s.role (' ' :: w.said s) ↔
        Sentence.IsClear w roles (.constraint s) :=
      ⟨fun h _ => h, fun h => (em (s.excluded = [])).elim (isOwn_of_no_exclusion hroles w) h⟩
    rw [Wording.line, if_pos hstart, Option.map_eq_some_iff, ← hown, ← hread.eq_iff]
    simp only [Sentence.constraint.injEq, exists_eq_right]
  | onlyOneOf role fields =>
    have hread := outcome_onlyOneOf hroles w hs.1 hs.2.1 hs.2.2
    have hnone : (ofRoles roles).constraintStart (w.onlyOneOf role fields) = [] :=
      constraintStart_eq_nil hg fun taken rest ht hq =>
        modalPhrase_in_onlyOneOf hroles w hs.1 hs.2.1 ht hq
    have hstart : (ofRoles roles).onlyOneStart (w.onlyOneOf role fields) ≠ [] := by
      rw [onlyOneOf, outcome_bind] at hread
      exact ne_nil_of_outcome hread
    rw [Wording.line, if_neg (not_not_intro hnone), if_pos hstart, hread]
    exact iff_of_true rfl trivial
  | eachOf listed trailer =>
    have hread := gives_eachOf hroles w hs.1 hs.2.1 hs.2.2 hl
    have hnone : (ofRoles roles).constraintStart (w.eachOf listed trailer) = [] := by
      apply eq_nil_of_outcome
      simp [constraintStart_eq, subject, Wording.eachOf]
    have honly : (ofRoles roles).onlyOneStart (w.eachOf listed trailer) = [] := by
      apply eq_nil_of_outcome
      simp [onlyOneStart, subject, Wording.eachOf]
    rw [Wording.line, if_neg (not_not_intro hnone), if_neg (not_not_intro honly), Option.or_of_isSome hread.isSome]
    exact hread.eq_iff
  | roleDefinition d =>
    have hread := outcome_roleDefinition hroles w hs.1 hs.2.1 hs.2.2
    have hnone : (ofRoles roles).constraintStart (w.roleDefinition d) = [] :=
      constraintStart_eq_nil hg fun taken rest ht hq =>
        modalPhrase_eq_nil fun verb hv => not_verb_in_roleDefinition hroles w hs.1 hv ht hq
    have honly : (ofRoles roles).onlyOneStart (w.roleDefinition d) = [] :=
      onlyOneStart_eq_nil hg fun taken rest ht hq =>
        not_verb_in_roleDefinition hroles w hs.1 (by simp) ht hq
    have heach : (ofRoles roles).eachOf.outcome ended (w.roleDefinition d) = none := by
      simp [eachOf, phrase, Wording.roleDefinition, Wording.subject]
    rw [Wording.line, if_neg (not_not_intro hnone), if_neg (not_not_intro honly), heach, hread]
    exact iff_of_true rfl trivial

end

/-- Where no known role starts with another one, no longer role can be read in place of any. -/
theorem isClear_of_no_longer_role {roles : List String} (w : Wording) {s : Sentence} (hs : s.IsOver roles)
    (h : ∀ role ∈ roles, ∀ other ∈ roles, chars role <+: chars other → other = role) :
    s.ListsLongest w roles ∧ s.IsClear w roles := by
  have hmore : ∀ role ∈ roles, ∀ other ∈ roles, ∀ more, chars other = chars role ++ more → more = [] := by
    intro role hr other ho more hmore
    have hsame := h role hr other ho ⟨more, hmore.symm⟩
    rwa [hsame, List.self_eq_append_right] at hmore
  have hlongest : ∀ role ∈ roles, ∀ rest, IsLongest roles role rest :=
    fun role hr _ other ho more he _ => hmore role hr other ho more he
  have hown {α : Type} (read : String → Reader α) : ∀ role ∈ roles, ∀ rest, IsOwn roles read role rest :=
    fun role hr _ other _ ⟨ho, more, he, hne, _⟩ => absurd (hmore role hr other ho more he) hne
  cases s with
  | constraint s =>
    exact ⟨Enumeration.along_of_forall (fun role hr _ => hlongest role (hs.excluded role hr)) false,
      fun _ => hown _ s.role hs.role _⟩
  | onlyOneOf role fields => exact ⟨trivial, trivial⟩
  | eachOf listed trailer =>
    exact ⟨Enumeration.along_of_forall (fun role hr _ => hlongest role (hs.2.1 role hr)) false,
      Enumeration.along_of_forall (fun role hr _ => hown _ role (hs.2.1 role hr)) false⟩
  | roleDefinition d => exact ⟨trivial, trivial⟩

/-- The article "an" stands before a vowel. -/
def usualWording : Wording where
  an := fun word => (chars word).head?.any (· ∈ ['a', 'e', 'i', 'o', 'u', 'A', 'E', 'I', 'O', 'U'])
  asFields := true

/-- `A State which is not a Pass or a Task MUST have an integer field named one of "Retries", "Attempts", or
"Limit" whose value MUST be less than 10; its value is a "Count".` -/
def retriesSentence : Sentence :=
  .constraint {
    role := "State"
    excluded := ["Pass", "Task"]
    modal := .must
    type := some ⟨false, .single, .plain .integer⟩
    fields := .oneOf ["Retries", "Attempts", "Limit"]
    predicate := some (.relation .lessThan "10")
    child := some (.value "Count") }

/-- A longer role stands in place of the subject too, but nothing that a constraint says goes on behind it. -/
theorem retriesSentence_reads_back :
    let roles := ["State", "State which is not a Pass", "Pass", "Pass State", "Task"]
    (∀ role ∈ roles, IsRoleName role) ∧ retriesSentence.IsOver roles ∧
      retriesSentence.ListsLongest usualWording roles ∧ retriesSentence.IsClear usualWording roles ∧
        (ofRoles roles).parse? (usualWording.line retriesSentence) = some retriesSentence := by
  intro roles
  have hroles : ∀ role ∈ roles, IsRoleName role := by decide
  have hover : retriesSentence.IsOver roles := by decide
  have hlongest : retriesSentence.ListsLongest usualWording roles := by decide
  have hclear : retriesSentence.IsClear usualWording roles := by decide +kernel
  exact ⟨hroles, hover, hlongest, hclear, (parse_line hroles usualWording hover hlongest).mpr hclear⟩

/-- The line of the sentence is not read back, though the sentence is over roles with proper names. -/
def IsMisread (w : Wording) (roles : List String) (s : Sentence) : Prop :=
  (∀ role ∈ roles, IsRoleName role) ∧ s.IsOver roles ∧ (ofRoles roles).parse? (w.line s) ≠ some s

instance (w : Wording) (roles : List String) (s : Sentence) : Decidable (IsMisread w roles s) :=
  inferInstanceAs (Decidable (_ ∧ _ ∧ _))

/-- `A State which is not a Final State MUST have a string field named "Next".`, and the same of states that
are neither of two kinds. -/
def nextSentence (excluded : List String) : Sentence :=
  .constraint {
    role := "State"
    excluded := excluded
    modal := .must
    type := some ⟨false, .single, .plain .string⟩
    fields := .single "Next"
    predicate := none
    child := none }

/-- Roles are tried longest first, and a longer one can stand in place of the subject, of several roles in a list, or
of the last one and the verb behind it. The value of a field cannot be read where nothing is written for it. -/
theorem longer_roles_misread :
    IsMisread usualWording ["State", "Final State", "State which is not a Final State"]
        (nextSentence ["Final State"]) ∧
      IsMisread usualWording ["State", "Pass", "Fail", "Pass or a Fail"] (nextSentence ["Pass", "Fail"]) ∧
      IsMisread usualWording ["State", "State is"] (.eachOf ["State"] "is a \"Node\".") ∧
      (ofRoles ["State"]).parse? (usualWording.line
        (.roleDefinition ⟨"State", .fieldValue "Type" "", "Pass"⟩)) = none := by
  decide +kernel

end Grammar

end ProseSchema
