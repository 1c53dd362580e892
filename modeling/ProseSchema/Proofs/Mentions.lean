import ProseSchema.Proofs.RoleReading

/-!
# Mentions

A list of names as it may be written, with white space of any kind, is scanned for the names behind its articles.
The scan finds the longest known role in each place, so it recovers the names in the list only if they are that.
-/

namespace ProseSchema

open Reader

/-- Some white space. -/
def IsGap (u : List Char) : Prop :=
  u ≠ [] ∧ ∀ c ∈ u, isSpace c = true

/-- The numbers of all characters that are white space. -/
def spaces : List Nat :=
  List.range' 9 5 ++ [0x20, 0x85, 0xa0, 0x1680] ++ List.range' 0x2000 11 ++ [0x2028, 0x2029, 0x202f, 0x205f, 0x3000]

lemma toNat_mem_spaces {c : Char} (h : isSpace c = true) : c.toNat ∈ spaces := by
  simp only [isSpace, Bool.or_eq_true, Bool.and_eq_true, decide_eq_true_eq, beq_iff_eq] at h
  rcases h with (((((((((⟨hl, hr⟩ | rfl) | rfl) | rfl) | rfl) | ⟨hl, hr⟩) | rfl) | rfl) | rfl) | rfl) | rfl
  · have hl' : 9 ≤ c.toNat := hl
    have hr' : c.toNat ≤ 13 := hr
    simp only [spaces, List.mem_append, List.mem_range'_1]
    omega
  iterate 4 decide
  · have hl' : 0x2000 ≤ c.toNat := hl
    have hr' : c.toNat ≤ 0x200a := hr
    simp only [spaces, List.mem_append, List.mem_range'_1]
    omega
  all_goals decide

/-- White space is no part of a word. -/
lemma isWordChar_of_isSpace {c : Char} (h : isSpace c = true) : isWordChar c = false := by
  have hall : ∀ n ∈ spaces, isWordChar (Char.ofNat n) = false := by decide +kernel
  have hc := hall c.toNat (toNat_mem_spaces h)
  rwa [Char.ofNat_toNat] at hc

lemma IsGap.ne_cons {gap : List Char} (h : IsGap gap) {c : Char} (hc : isSpace c = false) : c ∉ gap := by
  intro hm
  rw [h.2 c hm] at hc
  exact absurd hc (by decide)

lemma IsGap.isWordChar_last {gap : List Char} (h : IsGap gap) : gap.getLast?.any isWordChar = false := by
  rw [List.getLast?_eq_some_getLast h.1]
  exact isWordChar_of_isSpace (h.2 _ (List.getLast_mem h.1))

lemma IsGap.append {u v : List Char} (hu : IsGap u) (hv : IsGap v) : IsGap (u ++ v) :=
  ⟨List.append_ne_nil_of_left_ne_nil hu.1 v, List.forall_mem_append.mpr ⟨hu.2, hv.2⟩⟩

namespace Reader

variable {γ : Type} {gap text : List Char} {c : γ}

lemma outcome_run_append {p : Char → Bool} (hg : ∀ d ∈ gap, p d = true) (ht : ∀ d ∈ text.head?, p d = false)
    {next : List Char → List Char → Option γ} (hn : next gap text = some c) :
    (run p).outcome next (gap ++ text) = some c := by
  induction gap generalizing next with
  | nil => rwa [List.nil_append, outcome_run_stop _ _ ht]
  | cons d gap ih =>
    rw [List.forall_mem_cons] at hg
    rw [List.cons_append, outcome_run_cons _ _ hg.1, ih hg.2 hn, Option.some_or]

/-- All the white space is read if what comes next gets through then. -/
lemma outcome_blanks_append (hg : IsGap gap) (ht : Solid text) {next : Unit → List Char → Option γ}
    (hn : next () text = some c) : blanks.outcome next (gap ++ text) = some c := by
  obtain ⟨hne, hs⟩ := hg
  obtain ⟨d, gap, rfl⟩ := List.exists_cons_of_ne_nil hne
  rw [List.forall_mem_cons] at hs
  simp only [blanks, run1, outcome_map, outcome_bind, outcome_pure, List.cons_append, outcome_char_cons, hs.1,
    if_true]
  exact outcome_run_append hs.2 ht hn

end Reader

namespace Enumeration

/-! Articles. -/

/-- An indefinite article with white space behind it. -/
def IsArticle (u : List Char) : Prop :=
  ∃ gap, IsGap gap ∧ (u = 'a' :: gap ∨ u = 'a' :: 'n' :: gap)

lemma IsArticle.append {u gap : List Char} (hu : IsArticle u) (hg : IsGap gap) : IsArticle (u ++ gap) := by
  obtain ⟨own, ho, rfl | rfl⟩ := hu
  · exact ⟨own ++ gap, ho.append hg, .inl rfl⟩
  · exact ⟨own ++ gap, ho.append hg, .inr rfl⟩

lemma IsArticle.exists_cons {u : List Char} (hu : IsArticle u) : ∃ v, u = 'a' :: v := by
  obtain ⟨gap, -, rfl | rfl⟩ := hu
  · exact ⟨_, rfl⟩
  · exact ⟨_, rfl⟩

lemma outcome_article_append {γ : Type} {u text : List Char} (hu : IsArticle u) (ht : Solid text)
    {next : Unit → List Char → Option γ} {c : γ} (hn : next () text = some c) :
    article.outcome next (u ++ text) = some c := by
  obtain ⟨gap, hg, rfl | rfl⟩ := hu
  · obtain ⟨d, others, hd⟩ := List.exists_cons_of_ne_nil hg.1
    have hne : ¬ 'n' = d := by
      rintro rfl
      exact hg.ne_cons (by decide) (hd ▸ List.mem_cons_self)
    have hblanks := outcome_blanks_append hg ht hn
    rw [hd, List.cons_append] at hblanks
    rw [hd]
    simp [article, hne, hblanks]
  · simp [article, outcome_blanks_append hg ht hn]

/-! The text of a list. -/

/-- What stands behind a name: nothing, the connector and the last name, or another name and what stands behind
that one. Each of the names that follow is given with the text behind it. `comma` tells whether the name has
another one in front of it. -/
inductive Continues (connector : String) : (comma : Bool) → List (String × List Char) → List Char → Prop
  | stop : Continues connector false [] []
  | last (comma : Bool) {gap gap' u : List Char} {name : String} : IsGap gap → IsGap gap' → IsArticle u →
      Continues connector comma [(name, [])]
        ((if comma then [','] else []) ++ gap ++ (chars connector ++ (gap' ++ (u ++ (chars name ++ [])))))
  | more (comma : Bool) {gap u rest : List Char} {name : String} {places : List (String × List Char)} :
      IsGap gap → IsArticle u → Continues connector true places rest →
      Continues connector comma ((name, rest) :: places) (',' :: gap ++ (u ++ (chars name ++ rest)))

/-- The text is a list of names, each behind its article, and each given with the text behind it. -/
inductive IsList (connector : String) : List (String × List Char) → List Char → Prop
  | intro {u rest : List Char} {name : String} {places : List (String × List Char)} : IsArticle u →
      Continues connector false places rest → IsList connector ((name, rest) :: places) (u ++ (chars name ++ rest))

/-- The names that an item of a list can have. -/
def candidates (names : List String) : List String :=
  if names.isEmpty then [""] else names

/-- Without any known role an item has the empty name. -/
lemma mem_candidates_iff {roles : List String} {name : String} :
    name ∈ candidates (Grammar.ofRoles roles).roles ↔ name ∈ roles ∨ (roles = [] ∧ name = "") := by
  cases roles with
  | nil => simp [candidates, Grammar.ofRoles]
  | cons role others =>
    have hm : role ∈ (Grammar.ofRoles (role :: others)).roles := Grammar.mem_ofRoles.mpr List.mem_cons_self
    rw [candidates, if_neg (by simpa using List.ne_nil_of_mem hm), Grammar.mem_ofRoles]
    simp

/-! The scan for names. -/

section

variable (names : List String)

/-- Behind a mention the scan goes on where the mention ends. -/
lemma mentionsFrom_skip (before : Option Char) (u text : List Char) :
    mentionsFrom names before u.length (u ++ text) = mentionsFrom names (u.getLast?.or before) 0 text := by
  induction u generalizing before with
  | nil => rfl
  | cons c u ih =>
    rw [List.length_cons, List.cons_append, mentionsFrom, ih, List.getLast?_cons]
    cases u.getLast? <;> rfl

variable {names}

lemma mentionsFrom_of_mention {before : Option Char} (hb : before.any isWordChar = false) {c : Char}
    {u text : List Char} {name : String} (h : (mention names (c :: (u ++ text))).head? = some (name, text)) :
    mentionsFrom names before 0 (c :: (u ++ text)) =
      name :: mentionsFrom names (some (u.getLast?.getD c)) 0 text := by
  have hl : (u ++ text).length - text.length = u.length := by simp
  rw [mentionsFrom, hb, if_neg (by simp), h]
  simp only [hl, mentionsFrom_skip]
  cases u.getLast? <;> rfl

lemma mentionsFrom_of_no_mention (before : Option Char) {c : Char} {text : List Char}
    (h : mention names (c :: text) = []) :
    mentionsFrom names before 0 (c :: text) = mentionsFrom names (some c) 0 text := by
  rw [mentionsFrom, h]
  simp

lemma mention_of_ne {c : Char} (h : c ≠ 'a') (text : List Char) : mention names (c :: text) = [] := by
  have hc : ¬ 'a' = c := Ne.symm h
  apply eq_nil_of_outcome
  simp [mention, article, hc]

lemma mention_connector {connector : String} (hc : connector ∈ ["or", "and"]) (text : List Char) :
    mention names (chars connector ++ text) = [] := by
  apply eq_nil_of_outcome
  rw [mention, outcome_bind, outcome_article_connector hc]

end

/-- Nothing, white space or a comma and white space stands in front of what comes next. -/
def IsBreak (sep next : List Char) : Prop :=
  (sep = [] ∧ next = []) ∨ ((IsGap sep ∨ ∃ gap, IsGap gap ∧ sep = ',' :: gap) ∧ GoesOn next)

/-- The comma and the white space that a mention may end in. -/
def breakAfter : Reader (Option Unit) :=
  optional (do literal [',']; blanks)

lemma mention_eq (names : List String) : mention names = (do
    article
    let name ← oneOf names
    let _ ← breakAfter
    pure name) :=
  rfl

lemma outcome_breakAfter_of_ne {text : List Char} (h : ∀ c ∈ text.head?, c ≠ ',') {γ : Type}
    (next : Option Unit → List Char → Option γ) : breakAfter.outcome next text = next none text := by
  cases text with
  | nil => simp [breakAfter]
  | cons c text =>
    have hc : ¬ ',' = c := fun he => h c rfl he.symm
    simp [breakAfter, hc]

lemma exists_breakAfter (name : String) (text : List Char) :
    ∃ rest, breakAfter.outcome (fun _ rest => some (name, rest)) text = some (name, rest) := by
  rw [breakAfter, outcome_optional]
  cases h : ((do literal [',']; blanks : Reader Unit).outcome (fun _ rest => some (name, rest)) text) with
  | none => exact ⟨text, rfl⟩
  | some way =>
    obtain ⟨_, -, hw⟩ := List.exists_of_findSome?_eq_some h
    obtain rfl := Option.some.inj hw
    exact ⟨_, rfl⟩

section

variable {roles : List String} {u : List Char} (hu : IsArticle u)

include hu

lemma head?_mention_nil {text : List Char} (hs : Solid text) : (mention [] (u ++ text)).head? =
    breakAfter.outcome (fun _ rest => some ("", rest)) text := by
  obtain ⟨rest, hrest⟩ := exists_breakAfter "" text
  rw [hrest, head?_eq_outcome, mention_eq, outcome_bind]
  apply outcome_article_append hu hs
  simpa [oneOf, keyword] using hrest

variable (hroles : ∀ role ∈ roles, chars role ≠ [] ∧ Solid (chars role))

include hroles

lemma head?_mention_of_longest {role : String} (hr : role ∈ roles) {text : List Char}
    (hl : IsLongest roles role text) :
    (mention (Grammar.ofRoles roles).roles (u ++ (chars role ++ text))).head? =
      breakAfter.outcome (fun _ rest => some (role, rest)) text := by
  obtain ⟨rest, hrest⟩ := exists_breakAfter role text
  obtain ⟨hne, hs⟩ := hroles role hr
  rw [hrest, head?_eq_outcome, mention_eq, outcome_bind]
  apply outcome_article_append hu (hs.append hne text)
  rw [outcome_bind]
  apply outcome_oneOf hr
  · rintro other behind ⟨ho, more, hmore, hne, htext⟩
    exact absurd (hl other ho more hmore ⟨behind, htext.symm⟩) hne
  · simpa using hrest

end

/-- Where a known role stands, one of the roles that stand there is the longest. -/
lemma exists_longest {roles : List String} {role : String} (hr : role ∈ roles) (text : List Char) :
    ∃ name ∈ roles, ∃ rest, chars role ++ text = chars name ++ rest ∧ IsLongest roles name rest := by
  by_cases hl : IsLongest roles role text
  · exact ⟨role, hr, text, rfl, hl⟩
  · simp only [IsLongest, not_forall] at hl
    obtain ⟨other, ho, more, hmore, ⟨behind, rfl⟩, hne⟩ := hl
    have hless : behind.length < (more ++ behind).length := by
      have := List.length_pos_of_ne_nil hne
      rw [List.length_append]
      omega
    obtain ⟨name, hn, rest, hrest, hlongest⟩ := exists_longest ho behind
    exact ⟨name, hn, rest, by rw [← hrest, hmore, List.append_assoc], hlongest⟩
termination_by text.length

/-- The comma of a break belongs to the mention in front of it, and the white space does only behind a comma. -/
lemma exists_breakAfter_of_isBreak {sep next : List Char} (h : IsBreak sep next) (name : String) :
    ∃ rest, (rest = next ∨ rest = sep ++ next) ∧
      breakAfter.outcome (fun _ rest => some (name, rest)) (sep ++ next) = some (name, rest) := by
  rcases h with ⟨rfl, rfl⟩ | ⟨hg | ⟨gap, hg, rfl⟩, hn⟩
  · exact ⟨[], .inl rfl, outcome_breakAfter_of_ne (by simp) _⟩
  · refine ⟨sep ++ next, .inr rfl, outcome_breakAfter_of_ne ?_ _⟩
    obtain ⟨c, gap, rfl⟩ := List.exists_cons_of_ne_nil hg.1
    simp only [List.cons_append, List.head?_cons, Option.mem_some_iff, forall_eq']
    rintro rfl
    exact hg.ne_cons isSpace_comma List.mem_cons_self
  · refine ⟨next, .inl rfl, ?_⟩
    have hblanks : blanks.outcome (fun _ rest => some (name, rest)) (gap ++ next) = some (name, next) :=
      outcome_blanks_append hg hn.solid rfl
    simp [breakAfter, hblanks]

section

variable {roles : List String} (hroles : ∀ role ∈ roles, chars role ≠ [] ∧ Solid (chars role))
  {name : String} (hname : name ∈ candidates (Grammar.ofRoles roles).roles) {u : List Char} (hu : IsArticle u)

include hroles hname hu

/-- The name itself is mentioned where it is the longest role in its place. -/
lemma exists_mention_of_longest {sep next : List Char} (hl : IsLongest roles name (sep ++ next))
    (hbreak : IsBreak sep next) : ∃ rest, (rest = next ∨ rest = sep ++ next) ∧
      (mention (Grammar.ofRoles roles).roles (u ++ (chars name ++ (sep ++ next)))).head? = some (name, rest) := by
  obtain ⟨rest, hrest, hread⟩ := exists_breakAfter_of_isBreak hbreak name
  rcases mem_candidates_iff.mp hname with hr | ⟨rfl, rfl⟩
  · exact ⟨rest, hrest, by rw [head?_mention_of_longest hu hroles hr hl, hread]⟩
  · change ∃ rest, _ ∧ (mention [] (u ++ (sep ++ next))).head? = _
    by_cases hs : Solid (sep ++ next)
    · exact ⟨rest, hrest, by rw [head?_mention_nil hu hs, hread]⟩
    · -- White space behind the empty name is read as white space of the article.
      obtain ⟨hg, hn⟩ : IsGap sep ∧ GoesOn next := by
        rcases hbreak with ⟨rfl, rfl⟩ | ⟨hg | ⟨gap, -, rfl⟩, hn⟩
        · exact absurd solid_nil hs
        · exact ⟨hg, hn⟩
        · exact absurd (by simp) hs
      refine ⟨next, .inl rfl, ?_⟩
      rw [← List.append_assoc, head?_mention_nil (hu.append hg) hn.solid]
      exact outcome_breakAfter_of_ne (fun c hc => (hn c hc).2) _

/-- Another name is mentioned where it is not the longest role in its place. -/
lemma exists_mention_of_longer {text : List Char} (hl : ¬IsLongest roles name text) : ∃ other rest, other ≠ name ∧
    (mention (Grammar.ofRoles roles).roles (u ++ (chars name ++ text))).head? = some (other, rest) := by
  have hr : name ∈ roles := by
    rcases mem_candidates_iff.mp hname with hr | ⟨rfl, -⟩
    · exact hr
    · exact absurd (fun _ ho => absurd ho List.not_mem_nil) hl
  obtain ⟨other, ho, behind, htext, hlongest⟩ := exists_longest hr text
  obtain ⟨rest, hrest⟩ := exists_breakAfter other behind
  refine ⟨other, rest, ?_, by rw [htext, head?_mention_of_longest hu hroles ho hlongest, hrest]⟩
  rintro rfl
  rw [List.append_cancel_left htext] at hl
  exact hl hlongest

end

lemma mentionsFrom_pass {names : List String} {v : List Char} (h : 'a' ∉ v) (before : Option Char)
    (text : List Char) :
    mentionsFrom names before 0 (v ++ text) = mentionsFrom names (v.getLast?.or before) 0 text := by
  induction v generalizing before with
  | nil => rfl
  | cons c v ih =>
    rw [List.mem_cons, not_or] at h
    rw [List.cons_append, mentionsFrom_of_no_mention _ (mention_of_ne (Ne.symm h.1) _), ih h.2, List.getLast?_cons]
    cases v.getLast? <;> rfl

lemma mentionsFrom_gap {names : List String} {gap : List Char} (hg : IsGap gap) (before : Option Char)
    (text : List Char) : mentionsFrom names before 0 (gap ++ text) = mentionsFrom names gap.getLast? 0 text := by
  rw [mentionsFrom_pass (hg.ne_cons (by decide)), List.getLast?_eq_some_getLast hg.1, Option.some_or]

lemma mentionsFrom_past_connector {names : List String} {connector : String} (hc : connector ∈ ["or", "and"])
    {gap : List Char} (hg : IsGap gap) (before : Option Char) (text : List Char) :
    mentionsFrom names before 0 (chars connector ++ (gap ++ text)) = mentionsFrom names gap.getLast? 0 text := by
  have hm : mention names (chars connector ++ (gap ++ text)) = [] := mention_connector hc _
  rcases List.mem_pair.mp hc with rfl | rfl
  · exact (mentionsFrom_pass (v := ['o', 'r']) (by decide) before (gap ++ text)).trans (mentionsFrom_gap hg _ text)
  · simp only [chars_eq_toList, String.reduceToList, List.cons_append, List.nil_append] at hm ⊢
    rw [mentionsFrom_of_no_mention _ hm]
    exact (mentionsFrom_pass (v := ['n', 'd']) (by decide) (some 'a') (gap ++ text)).trans
      (mentionsFrom_gap hg _ text)

namespace IsBreak

variable {sep next : List Char} (h : IsBreak sep next)

include h

lemma eq_nil_or : (sep = [] ∧ next = []) ∨ ∃ u gap, IsGap gap ∧ sep = u ++ gap ∧ 'a' ∉ u := by
  rcases h with hnil | ⟨hg | ⟨gap, hg, rfl⟩, -⟩
  · exact .inl hnil
  · exact .inr ⟨[], sep, hg, rfl, List.not_mem_nil⟩
  · exact .inr ⟨[','], gap, hg, rfl, by decide⟩

/-- The last character of a break is white space. -/
lemma isWordChar_last : sep.getLast?.any isWordChar = false := by
  rcases h.eq_nil_or with ⟨rfl, -⟩ | ⟨u, gap, hg, rfl, -⟩
  · rfl
  · rw [List.getLast?_append_of_ne_nil _ hg.1]
    exact hg.isWordChar_last

/-- Behind a mention the scan gets past the break, whether or not the mention takes it up. -/
lemma mentionsFrom_eq {names : List String} {before : Option Char} (hb : before.any isWordChar = false)
    {w rest : List Char} (hrest : rest = next ∨ rest = sep ++ next) {name : String}
    (hm : (mention names ('a' :: (w ++ (sep ++ next)))).head? = some (name, rest)) :
    mentionsFrom names before 0 ('a' :: (w ++ (sep ++ next))) =
      name :: mentionsFrom names sep.getLast? 0 next := by
  rcases h.eq_nil_or with ⟨rfl, rfl⟩ | ⟨u, gap, hg, rfl, ha⟩
  · obtain rfl : rest = [] := by simpa using hrest
    exact mentionsFrom_of_mention hb hm
  · rcases hrest with rfl | rfl
    · rw [← List.append_assoc] at hm ⊢
      rw [mentionsFrom_of_mention hb hm, ← List.append_assoc, List.getLast?_append_of_ne_nil _ hg.1,
        List.getLast?_append_of_ne_nil _ hg.1, List.getLast?_eq_some_getLast hg.1, Option.getD_some]
    · rw [mentionsFrom_of_mention hb hm, List.append_assoc, mentionsFrom_pass ha, mentionsFrom_gap hg,
        List.getLast?_append_of_ne_nil _ hg.1]

end IsBreak

section

variable {roles : List String} (hroles : ∀ role ∈ roles, chars role ≠ [] ∧ Solid (chars role))

include hroles

/-- The scan finds the name of an item first if it is the longest role in its place, and goes on with what comes
next then. -/
lemma mentionsFrom_eq_cons_iff {name : String} (hname : name ∈ candidates (Grammar.ofRoles roles).roles)
    {u : List Char} (hu : IsArticle u) {before : Option Char} (hb : before.any isWordChar = false)
    {sep next : List Char} (hbreak : IsBreak sep next) (others : List String) :
    mentionsFrom (Grammar.ofRoles roles).roles before 0 (u ++ (chars name ++ (sep ++ next))) = name :: others ↔
      IsLongest roles name (sep ++ next) ∧
        mentionsFrom (Grammar.ofRoles roles).roles sep.getLast? 0 next = others := by
  obtain ⟨v, hv⟩ := hu.exists_cons
  have ht : u ++ (chars name ++ (sep ++ next)) = 'a' :: ((v ++ chars name) ++ (sep ++ next)) := by
    rw [hv, List.append_assoc, List.cons_append]
  by_cases hl : IsLongest roles name (sep ++ next)
  · obtain ⟨rest, hrest, hm⟩ := exists_mention_of_longest hroles hname hu hl hbreak
    rw [ht] at hm ⊢
    rw [hbreak.mentionsFrom_eq hb hrest hm, List.cons_eq_cons]
    simp only [hl, true_and]
  · obtain ⟨other, rest, hne, hm⟩ := exists_mention_of_longer hroles hname hu hl
    rw [ht] at hm ⊢
    rw [mentionsFrom, hb, if_neg (by decide), hm]
    simp [hl, hne]

lemma mentionsFrom_eq_singleton_iff {name : String} (hname : name ∈ candidates (Grammar.ofRoles roles).roles)
    {u : List Char} (hu : IsArticle u) {before : Option Char} (hb : before.any isWordChar = false) :
    mentionsFrom (Grammar.ofRoles roles).roles before 0 (u ++ (chars name ++ [])) = [name] ↔
      IsLongest roles name [] := by
  have hbreak : IsBreak [] [] := .inl ⟨rfl, rfl⟩
  have hstep := mentionsFrom_eq_cons_iff hroles hname hu hb hbreak []
  have hend : mentionsFrom (Grammar.ofRoles roles).roles none 0 [] = [] := by rw [mentionsFrom]
  exact hstep.trans (and_iff_left hend)

/-- The scan finds the names that stand in a list just where each is the longest role in its place. -/
lemma mentionsFrom_eq_iff {connector : String} (hc : connector ∈ ["or", "and"]) {comma : Bool}
    {places : List (String × List Char)} {rest : List Char} (h : Continues connector comma places rest)
    (hp : ∀ p ∈ places, p.1 ∈ candidates (Grammar.ofRoles roles).roles) {name : String}
    (hname : name ∈ candidates (Grammar.ofRoles roles).roles) {u : List Char} (hu : IsArticle u)
    {before : Option Char} (hb : before.any isWordChar = false) :
    mentionsFrom (Grammar.ofRoles roles).roles before 0 (u ++ (chars name ++ rest)) =
        name :: places.map Prod.fst ↔
      IsLongest roles name rest ∧ ∀ p ∈ places, IsLongest roles p.1 p.2 := by
  induction h generalizing u name before with
  | stop => simpa using mentionsFrom_eq_singleton_iff hroles hname hu hb
  | @last comma gap gap' v last hg hg' hv =>
    rw [List.forall_mem_singleton] at hp
    have hnext : GoesOn (chars connector ++ (gap' ++ (v ++ (chars last ++ [])))) := by
      rcases List.mem_pair.mp hc with rfl | rfl <;> simp
    have hbreak : IsBreak ((if comma then [','] else []) ++ gap)
        (chars connector ++ (gap' ++ (v ++ (chars last ++ [])))) := by
      cases comma with
      | false => exact .inr ⟨.inl hg, hnext⟩
      | true => exact .inr ⟨.inr ⟨gap, hg, rfl⟩, hnext⟩
    rw [List.map_singleton, mentionsFrom_eq_cons_iff hroles hname hu hb hbreak, mentionsFrom_past_connector hc hg',
      mentionsFrom_eq_singleton_iff hroles hp hv hg'.isWordChar_last, List.forall_mem_singleton]
  | @more comma gap v rest other places hg hv _ ih =>
    rw [List.forall_mem_cons] at hp
    have hnext : GoesOn (v ++ (chars other ++ rest)) := by
      obtain ⟨w, rfl⟩ := hv.exists_cons
      simp
    have hbreak : IsBreak (',' :: gap) (v ++ (chars other ++ rest)) := .inr ⟨.inr ⟨gap, hg, rfl⟩, hnext⟩
    rw [List.map_cons, mentionsFrom_eq_cons_iff hroles hname hu hb hbreak, ih hp.2 hp.1 hv hbreak.isWordChar_last,
      List.forall_mem_cons]

/-- From the text of a list the names that stand in it are recovered just where each of them is the longest
known role in its place. -/
theorem mentions_eq_iff {connector : String} (hc : connector ∈ ["or", "and"])
    {placed : List (String × List Char)} {text : List Char} (h : IsList connector placed text)
    (hp : ∀ p ∈ placed, p.1 ∈ candidates (Grammar.ofRoles roles).roles) :
    mentions (Grammar.ofRoles roles).roles text = placed.map Prod.fst ↔ ∀ p ∈ placed, IsLongest roles p.1 p.2 := by
  obtain ⟨hu, hrest⟩ := h
  rw [List.forall_mem_cons] at hp ⊢
  exact mentionsFrom_eq_iff hroles hc hrest hp.2 hp.1 hu rfl

end

end Enumeration

end ProseSchema
