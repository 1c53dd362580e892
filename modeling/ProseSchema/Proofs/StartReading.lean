import ProseSchema.Proofs.ClauseReading

/-!
# Reading the start of sentences

The role that a sentence is about is read where it stands first. A longer known role may stand there too, if
it goes on with words of the sentence. Such a role is given up when the words behind it are none that can
follow a subject.
-/

namespace ProseSchema

open Reader

variable {γ : Type}

/-- Behind white space comes a single character that is none of those listed and no white space. -/
def Passes (starts : List Char) : List Char → Bool
  | [] => true
  | [c] => !isSpace c
  | c :: d :: text => (!isSpace c || (c = ' ' && !isSpace d && d ∉ starts)) && Passes starts (d :: text)

lemma Passes.of_append {starts more text : List Char} (h : Passes starts (more ++ text) = true) :
    Passes starts text = true := by
  induction more with
  | nil => exact h
  | cons c more ih =>
    apply ih
    cases hm : more ++ text with
    | nil => rfl
    | cons d rest =>
      rw [List.cons_append, hm, Passes, Bool.and_eq_true] at h
      exact h.2

/-- What comes next after white space does not get through. -/
lemma outcome_blanks_of_passes {starts text : List Char} (h : Passes starts text = true) (hne : text ≠ [])
    {next : Unit → List Char → Option γ} (hnext : ∀ c rest, c ∉ starts → next () (c :: rest) = none)
    (rest : List Char) : blanks.outcome next (text ++ rest) = none := by
  match text with
  | [] => exact absurd rfl hne
  | [c] =>
    have hs : isSpace c = false := by simpa [Passes] using h
    exact outcome_blanks_of_solid _ ((solid_cons _ _).mpr hs)
  | c :: d :: text =>
    simp only [Passes, Bool.and_eq_true, Bool.or_eq_true, Bool.not_eq_true', decide_eq_true_eq] at h
    rcases h.1 with hs | ⟨⟨rfl, hd⟩, hn⟩
    · exact outcome_blanks_of_solid _ ((solid_cons _ _).mpr hs)
    · have hsd : Solid (d :: (text ++ rest)) := (solid_cons _ _).mpr hd
      change blanks.outcome next (' ' :: (d :: (text ++ rest))) = none
      rw [outcome_blanks_cons _ hsd, hnext d _ hn]

lemma outcome_blanks_amid {starts words : List Char} (hp : Passes starts words = true)
    {more behind rest : List Char} (h : words ++ rest = more ++ behind) (hm : ¬words <+: more)
    {next : Unit → List Char → Option γ} (hnext : ∀ c rest, c ∉ starts → next () (c :: rest) = none) :
    blanks.outcome next behind = none := by
  rcases List.append_eq_append_iff.mp h with ⟨u, hu, -⟩ | ⟨u, hu, hb⟩
  · exact absurd ⟨u, hu.symm⟩ hm
  · have hne : u ≠ [] := by
      rintro rfl
      rw [List.append_nil] at hu
      exact hm (hu ▸ List.prefix_refl _)
    rw [hb]
    exact outcome_blanks_of_passes (Passes.of_append (hu ▸ hp)) hne hnext rest

/-- A known role ends before the modal verb does, and so amid a word if it goes on that far. -/
lemma IsRoleName.goesOn_of_verb {role : String} (h : IsRoleName role) {verb : String}
    (hv : verb ∈ ["MUST", "MAY"]) {before more behind rest : List Char}
    (he : chars role = before ++ more) (hr : chars verb ++ rest = more ++ behind) : GoesOn behind := by
  have hinfix : ¬chars verb <:+: chars role := by
    rcases List.mem_pair.mp hv with rfl | rfl
    · exact h.must
    · exact h.may
  have hletters : ∀ c ∈ chars verb, isSpace c = false ∧ c ≠ ',' := by
    rcases List.mem_pair.mp hv with rfl | rfl <;> simp
  rcases List.append_eq_append_iff.mp hr with ⟨u, hu, -⟩ | ⟨u, hu, hb⟩
  · exact absurd ⟨before, u, by rw [he, hu, List.append_assoc]⟩ hinfix
  · cases u with
    | nil => exact absurd ⟨before, [], by rw [he, hu]; simp⟩ hinfix
    | cons c u =>
      have hc := hletters c (by rw [hu]; simp)
      rw [hb]
      exact (goesOn_cons _ _).mpr hc

namespace Grammar

/-- In front of a modal verb a longer role ends amid a word, if it goes on that far. -/
lemma isLongestWord_of_verb {roles : List String} (hroles : ∀ role ∈ roles, IsRoleName role) {verb : String}
    (hv : verb ∈ ["MUST", "MAY"]) {role : String} {u : List Char} (h : IsLongest roles role u) (rest : List Char) :
    Enumeration.IsLongestWord roles role (u ++ ' ' :: (chars verb ++ rest)) := by
  rintro other behind ⟨ho, more, hmore, hne, hbehind⟩
  rcases List.append_eq_append_iff.mp hbehind with ⟨t, ht, hb⟩ | ⟨t, ht, -⟩
  · cases t with
    | nil =>
      rw [List.append_nil] at ht
      exact absurd (h other ho more hmore (ht ▸ List.prefix_refl _)) hne
    | cons c t =>
      obtain ⟨rfl, hverb⟩ := List.cons_eq_cons.mp hb
      have he : chars other = (chars role ++ u ++ [' ']) ++ t := by simpa [ht] using hmore
      exact (hroles other ho).goesOn_of_verb hv he hverb
  · exact absurd (h other ho more hmore ⟨t, ht.symm⟩) hne

section

variable {roles : List String} (hroles : ∀ role ∈ roles, IsRoleName role) (w : Wording) {role : String}
  (hr : role ∈ roles) {next : String → List Char → Option γ} {c : γ}

include hroles hr

/-- The subject of a sentence is read just where nothing gets through behind the longer known roles that stand in
its place. -/
lemma gives_subject {rest : List Char} (hs : Solid rest)
    (hne : ∀ other behind, Displaces roles role (' ' :: rest) other behind →
      blanks.outcome (fun _ text => next other text) behind ≠ some c)
    (hn : next role rest = some c) :
    Gives ((ofRoles roles).subject.outcome next (w.subject role ++ rest)) c
      (∀ other behind, Displaces roles role (' ' :: rest) other behind →
        blanks.outcome (fun _ text => next other text) behind = none) := by
  have hsr := (hroles role hr).solid (' ' :: rest)
  have ht : w.subject role ++ rest =
      'A' :: ((if w.an role then ['n'] else []) ++ ' ' :: (chars role ++ ' ' :: rest)) := by
    simp [Wording.subject]
  have hown : blanks.outcome (fun _ text => next role text) (' ' :: rest) = some c := by
    rw [outcome_blanks_cons _ hs, hn]
  have hread := Enumeration.gives_oneOf hr hne (Gives.of_eq hown)
  have hsubject : (ofRoles roles).subject.outcome next (w.subject role ++ rest) =
      (Enumeration.oneOf (ofRoles roles).roles).outcome
        (fun role text => blanks.outcome (fun _ text => next role text) text) (chars role ++ ' ' :: rest) := by
    simp only [chars_eq_toList] at hsr ⊢
    rw [ht]
    cases ha : w.an role <;> simp [subject, hsr]
  rw [hsubject]
  exact hread.congr (and_iff_left trivial)

lemma outcome_subject {rest : List Char} (hs : Solid rest)
    (hnone : ∀ other behind, Displaces roles role (' ' :: rest) other behind →
      blanks.outcome (fun _ text => next other text) behind = none)
    (hn : next role rest = some c) :
    (ofRoles roles).subject.outcome next (w.subject role ++ rest) = some c := by
  apply (gives_subject hroles w hr hs _ hn).eq_iff.mpr hnone
  intro other behind hd
  rw [hnone other behind hd]
  exact (Option.some_ne_none c).symm

lemma outcome_subject_verb {verb : String} (hv : verb ∈ ["MUST", "MAY"]) {rest : List Char}
    (hn : next role (chars verb ++ rest) = some c) :
    (ofRoles roles).subject.outcome next (w.subject role ++ (chars verb ++ rest)) = some c := by
  apply outcome_subject hroles w hr
  · rcases List.mem_pair.mp hv with rfl | rfl <;> simp
  · intro other behind hd
    exact outcome_blanks_of_solid _ (isLongestWord_of_verb hroles hv (isLongest_nil roles role) rest other behind hd).solid
  · exact hn

/-- The subject is read in front of words up to a quote, which no role holds. -/
lemma outcome_subject_quote {starts words : List Char} (hp : Passes starts words = true) (hq : '"' ∈ words)
    (hs : Solid words) {rest : List Char}
    (hnext : ∀ other c rest, c ∉ starts → next other (c :: rest) = none)
    (hn : next role (words ++ rest) = some c) :
    (ofRoles roles).subject.outcome next (w.subject role ++ (words ++ rest)) = some c := by
  have hne : words ≠ [] := List.ne_nil_of_mem hq
  apply outcome_subject hroles w hr (hs.append hne rest)
  · rintro other behind ⟨ho, more, hmore, hmne, hrest⟩
    obtain ⟨d, more, rfl⟩ := List.exists_cons_of_ne_nil hmne
    apply outcome_blanks_amid hp (List.cons_eq_cons.mp hrest).2
    · rintro ⟨u, hu⟩
      apply (hroles other ho).quoteless
      rw [hmore, ← hu]
      simp [hq]
    · exact hnext other
  · exact hn

end

/-! Exclusions. -/

lemma solid_verb {verb : String} (hv : verb ∈ ["MUST", "MAY"]) (rest : List Char) :
    Solid (chars verb ++ rest) := by
  rcases List.mem_pair.mp hv with rfl | rfl <;> simp

section

open Enumeration

variable {roles : List String} (hroles : ∀ role ∈ roles, IsRoleName role) {verb : String}
  (hv : verb ∈ ["MUST", "MAY"])

include hroles hv

lemma outcome_exclusion (w : Wording) {excluded : List String} (hne : excluded ≠ [])
    (hm : ∀ role ∈ excluded, role ∈ roles) (hl : Along "or" w.item (fun _ => IsLongest roles) [] false excluded)
    (next : List String → List Char → Option γ) {rest : List Char} {c : γ}
    (hn : next excluded (chars verb ++ rest) = some c) :
    (ofRoles roles).exclusion.outcome next (w.exclusion excluded ++ (chars verb ++ rest)) = some c := by
  have hs := solid_items w "or" hne (' ' :: (chars verb ++ rest))
  have hends : EndsList "or" (' ' :: (chars verb ++ rest)) := by
    apply endsList_blank (solid_verb hv rest)
    rcases List.mem_pair.mp hv with rfl | rfl <;> simp
  have hlw : Along "or" w.item (fun _ => IsLongestWord roles) (' ' :: (chars verb ++ rest)) false excluded := by
    apply hl.imp
    intro role _ place u h
    rw [List.append_nil] at h
    exact isLongestWord_of_verb hroles hv h rest
  have hlist := outcome_listed hroles w (by simp) hne hm hl (solid_verb hv rest) hlw hends next hn
  have ht : w.exclusion excluded ++ (chars verb ++ rest) = chars "which is not " ++
      (Enumeration.text "or" (excluded.map w.item) ++ ' ' :: (chars verb ++ rest)) := by
    simp [Wording.exclusion, Wording.excludedRoles, hne]
  rw [ht]
  simp only [chars_eq_toList] at hs hlist
  simp [exclusion, phrase, hs, hlist]

end

/-! Constraints. -/

/-- The modal verb and what follows it up to the first article. -/
def modalPhrase (role : String) (excluded : List String) : Reader (String × List String × Modal) := do
  let modal ← modal
  blanks
  literal (chars "have")
  blanks
  Enumeration.article
  pure (role, excluded, modal)

lemma constraintStart_eq (g : Grammar) : g.constraintStart = (do
    let role ← g.subject
    let excluded ← optional g.exclusion
    modalPhrase role (excluded.getD [])) :=
  rfl

lemma exists_verb (m : Modal) : ∃ verb ∈ ["MUST", "MAY"], ∃ more, chars m.words = chars verb ++ more := by
  cases m with
  | must => exact ⟨"MUST", by simp, [], by decide⟩
  | may => exact ⟨"MAY", by simp, [], by decide⟩
  | mustNot => exact ⟨"MUST", by simp, chars " NOT", by decide⟩

lemma outcome_modalPhrase (w : Wording) (role : String) (excluded : List String) (m : Modal) (word : String)
    (next : String × List String × Modal → List Char → Option γ) {rest : List Char} (hs : Solid rest) :
    (modalPhrase role excluded).outcome next (chars m.words ++ (chars " have " ++ (w.article word ++ rest))) =
      next (role, excluded, m) rest := by
  cases m <;> simp [modalPhrase, modal, keyword, Modal.words, hs]

lemma outcome_exclusion_of_not_starting (g : Grammar) (next : List String → List Char → Option γ)
    {text : List Char} (h : ¬chars "which" <+: text) : g.exclusion.outcome next text = none := by
  simp only [exclusion, phrase, outcome_bind, outcome_literal_of_not_starting _ h]

lemma outcome_exclusion_verb (g : Grammar) (next : List String → List Char → Option γ) {verb : String}
    (hv : verb ∈ ["MUST", "MAY"]) (rest : List Char) :
    g.exclusion.outcome next (chars verb ++ rest) = none := by
  apply outcome_exclusion_of_not_starting
  rcases List.mem_pair.mp hv with rfl | rfl <;> simp

lemma modalPhrase_eq_nil {text : List Char} (h : ∀ verb ∈ ["MUST", "MAY"], ¬chars verb <+: text)
    (role : String) (excluded : List String) : modalPhrase role excluded text = [] := by
  apply eq_nil_of_outcome
  have hmust := h "MUST" (by simp)
  have hmay := h "MAY" (by simp)
  have hnot : ¬chars "MUST NOT" <+: text := by
    intro hp
    exact hmust (List.IsPrefix.trans ⟨chars " NOT", by decide⟩ hp)
  simp only [modalPhrase, modal, outcome_bind, outcome_firstOf_cons, outcome_firstOf_nil,
    outcome_keyword_of_not_starting hmust, outcome_keyword_of_not_starting hmay,
    outcome_keyword_of_not_starting hnot, Option.none_or]

end Grammar

end ProseSchema
