import ProseSchema.Proofs.MatchedRoles

/-!
# The longest subject

The ways to read a subject come in the order of its length: the white space in front of a role is read as one
piece first, and there the known roles are tried longest first. Where less of the white space is read, no role can
stand that has any characters. So the subject of a sentence is the longest one with which the line goes on as the
sentences of its form do.
-/

namespace ProseSchema

/-- The role that a sentence is about, if it is about just one. -/
def Sentence.subject? : Sentence → Option String
  | .constraint s => some s.role
  | .onlyOneOf role _ => some role
  | .eachOf _ _ => none
  | .roleDefinition d => some d.role

namespace Reader

variable {α β γ : Type}

instance : LawfulMonad Reader :=
  LawfulMonad.mk' Reader
    (fun r => by
      funext text
      exact List.flatMap_singleton' (r text))
    (fun _ _ => by
      funext _
      exact List.append_nil _)
    (fun r f g => by
      funext text
      exact List.flatMap_assoc)

lemma pairwise_bind {r : Reader α} {f : α → Reader β} {text : List Char} {R : β × List Char → β × List Char → Prop} :
    ((r >>= f) text).Pairwise R ↔ (∀ way ∈ r text, (f way.1 way.2).Pairwise R) ∧
      (r text).Pairwise fun a b => ∀ x ∈ f a.1 a.2, ∀ y ∈ f b.1 b.2, R x y :=
  List.pairwise_flatMap

lemma pairwise_literal (word text : List Char) (R : Unit × List Char → Unit × List Char → Prop) :
    (literal word text).Pairwise R := by
  rw [literal]
  split
  · exact List.pairwise_singleton _ _
  · exact List.Pairwise.nil

lemma pairwise_char (p : Char → Bool) (text : List Char) (R : Char × List Char → Char × List Char → Prop) :
    (char p text).Pairwise R := by
  cases text with
  | nil => exact List.Pairwise.nil
  | cons c text =>
    rw [char]
    split
    · exact List.pairwise_singleton _ _
    · exact List.Pairwise.nil

lemma pairwise_run (text : List Char) : (run isSpace text).Pairwise fun _ b => ¬Solid b.2 := by
  induction text with
  | nil => exact List.pairwise_singleton _ _
  | cons c text ih =>
    rw [run]
    split
    · next hc =>
      rw [List.pairwise_append, List.pairwise_map]
      refine ⟨ih, List.pairwise_singleton _ _, ?_⟩
      intro a _ b hb
      rw [List.mem_singleton.mp hb, solid_cons, hc]
      exact Bool.noConfusion
    · exact List.pairwise_singleton _ _

/-- Only the first way to read white space leaves none of it over. -/
lemma pairwise_blanks (text : List Char) : (blanks text).Pairwise fun _ b => ¬Solid b.2 := by
  have hblanks : blanks = (do
      let _ ← char isSpace
      let _ ← run isSpace
      pure ()) := by
    simp only [blanks, run1, map_eq_pure_bind, bind_assoc, pure_bind]
  rw [hblanks, pairwise_bind]
  refine ⟨fun first _ => ?_, pairwise_char _ _ _⟩
  rw [pairwise_bind]
  refine ⟨fun _ _ => List.pairwise_singleton _ _, (pairwise_run first.2).imp ?_⟩
  intro a b hb x _ y hy
  rw [List.mem_singleton.mp hy]
  exact hb

/-- The first way that gets through counts, and the ways before it do not get through at all. -/
lemma exists_first_way {r : Reader α} {f : α → Reader β} {text : List Char} {b : β}
    (h : whole? (r >>= f) text = some b) :
    ∃ before way after, r text = before ++ way :: after ∧ (b, []) ∈ f way.1 way.2 ∧
      ∀ a ∈ before, ∀ c, (c, []) ∉ f a.1 a.2 := by
  rw [whole?_eq_outcome, outcome_bind, outcome, List.findSome?_eq_some_iff] at h
  obtain ⟨before, way, after, hsplit, hway, hbefore⟩ := h
  refine ⟨before, way, after, hsplit, mem_of_whole? ((whole?_eq_outcome _ _).trans hway), ?_⟩
  intro a ha c hc
  have hsome := isSome_whole?_iff.mpr ⟨c, hc⟩
  rw [whole?_eq_outcome, hbefore a ha] at hsome
  exact Bool.noConfusion hsome

end Reader

/-- Of two names at the start of a text the one that is not longer starts the other one. -/
lemma prefix_of_size_le {a b : String} {text : List Char} (hs : a.utf8ByteSize ≤ b.utf8ByteSize)
    (ha : chars a <+: text) (hb : chars b <+: text) : chars a <+: chars b := by
  by_cases hne : b = a
  · rw [hne]
  · obtain ⟨more, hmore, -⟩ := exists_more_of_prefix hne hs ha hb
    rw [hmore]
    exact List.prefix_append _ _

lemma size_le_of_starting {a b : String} (h : chars a <+: chars b) : a.utf8ByteSize ≤ b.utf8ByteSize := by
  obtain ⟨more, hm⟩ := h
  rw [utf8ByteSize_of_more hm.symm]
  exact Nat.le_add_right _ _

namespace Grammar

open Reader Enumeration

variable {g : Grammar} {line : List Char}

lemma pairwise_firstOf_keyword {R : String → String → Prop} {names : List String} (h : names.Pairwise R)
    (text : List Char) : (firstOf (names.map fun name => keyword name name) text).Pairwise fun a b => R a.1 b.1 := by
  induction names with
  | nil => exact List.Pairwise.nil
  | cons name names ih =>
    obtain ⟨hname, hnames⟩ := List.pairwise_cons.mp h
    change (keyword name name text ++ firstOf (names.map fun name => keyword name name) text).Pairwise _
    rw [List.pairwise_append]
    refine ⟨?_, ih hnames, ?_⟩
    · rw [keyword, pairwise_bind]
      exact ⟨fun _ _ => List.pairwise_singleton _ _, pairwise_literal _ _ _⟩
    · intro a ha b hb
      obtain ⟨r, hr, hb⟩ := mem_firstOf.mp hb
      obtain ⟨other, ho, rfl⟩ := List.mem_map.mp hr
      rw [(mem_keyword ha).1, (mem_keyword hb).1]
      exact hname other ho

lemma mem_oneOf {names : List String} {text : List Char} {way : String × List Char}
    (h : way ∈ oneOf names text) : (way.1 ∈ names ∨ way.1 = "") ∧ text = chars way.1 ++ way.2 := by
  obtain ⟨r, hr, h⟩ := mem_firstOf.mp h
  obtain ⟨name, hn, rfl⟩ := List.mem_map.mp hr
  obtain ⟨rfl, ht⟩ := mem_keyword h
  refine ⟨?_, ht⟩
  split at hn
  · exact .inr (List.mem_singleton.mp hn)
  · exact .inl hn

/-- At one place, the roles are tried longest first, and the longer ones start with the others. -/
lemma pairwise_oneOf (hsort : IsSorted g.roles) (text : List Char) :
    (oneOf g.roles text).Pairwise fun a b => chars b.1 <+: chars a.1 := by
  have hsizes : (if g.roles.isEmpty then [""] else g.roles).Pairwise fun a b => b.utf8ByteSize ≤ a.utf8ByteSize := by
    split
    · exact List.pairwise_singleton _ _
    · exact hsort
  have hways := pairwise_firstOf_keyword hsizes text
  refine hways.imp_of_mem fun ha hb hs => ?_
  have hta := (mem_oneOf ha).2
  have htb := (mem_oneOf hb).2
  exact prefix_of_size_le hs ⟨_, htb.symm⟩ ⟨_, hta.symm⟩

/-- In front of white space only the empty role can stand. -/
lemma eq_nil_of_mem_oneOf (hsolid : ∀ name ∈ g.roles, Solid (chars name)) {text : List Char}
    {way : String × List Char} (h : way ∈ oneOf g.roles text) (ht : ¬Solid text) : chars way.1 = [] := by
  obtain ⟨hname | hempty, htext⟩ := mem_oneOf h
  · by_contra hne
    rw [htext] at ht
    exact ht ((hsolid way.1 hname).append hne way.2)
  · rw [hempty]
    rfl

/-- Behind an article, too, only the first way to read white space leaves none of it over. -/
lemma pairwise_gap (text : List Char) :
    ((optional (literal ['n']) >>= fun _ => blanks) text).Pairwise fun _ b => ¬Solid b.2 := by
  rw [pairwise_bind]
  refine ⟨fun way _ => pairwise_blanks way.2, List.pairwise_append.mpr ⟨?_, List.pairwise_singleton _ _, ?_⟩⟩
  · change ((literal ['n'] >>= fun n => pure (some n)) text).Pairwise _
    rw [pairwise_bind]
    exact ⟨fun _ _ => List.pairwise_singleton _ _, pairwise_literal _ _ _⟩
  · -- An article that has an `n` is not followed by white space where the `n` is left out.
    intro a ha b hb x _ y hy
    obtain ⟨first, hfirst, -⟩ := mem_bind.mp ha
    rw [List.mem_singleton.mp hb, mem_literal hfirst] at hy
    have hnil : blanks (['n'] ++ first.2) = [] := eq_nil_of_outcome (outcome_blanks_of_solid _ (by simp))
    exact absurd (hnil ▸ hy) List.not_mem_nil

/-- A known role and the white space behind it. -/
def roleAndBlanks (g : Grammar) : Reader String := do
  let role ← oneOf g.roles
  blanks
  pure role

lemma mem_roleAndBlanks {text : List Char} {way : String × List Char} (h : way ∈ g.roleAndBlanks text) :
    ∃ rest, (way.1, rest) ∈ oneOf g.roles text := by
  obtain ⟨role, hrole, h⟩ := mem_bind.mp h
  obtain ⟨gap, -, h⟩ := mem_bind.mp h
  obtain rfl := List.mem_singleton.mp h
  exact ⟨role.2, hrole⟩

lemma pairwise_roleAndBlanks (hsort : IsSorted g.roles) (text : List Char) :
    (g.roleAndBlanks text).Pairwise fun a b => chars b.1 <+: chars a.1 := by
  have hgap {role : String} {rest : List Char} {way : String × List Char}
      (h : way ∈ (blanks >>= fun _ => pure role : Reader String) rest) : way.1 = role := by
    obtain ⟨gap, -, h⟩ := mem_bind.mp h
    rw [List.mem_singleton.mp h]
  rw [roleAndBlanks, pairwise_bind]
  constructor
  · intro role _
    apply List.pairwise_of_forall_mem_list
    intro a ha b hb
    rw [hgap ha, hgap hb]
  · refine (pairwise_oneOf hsort text).imp fun hab x hx y hy => ?_
    rw [hgap hx, hgap hy]
    exact hab

/-- The ways to read a subject come in the order of its length. -/
lemma pairwise_subject (hsort : IsSorted g.roles) (hsolid : ∀ name ∈ g.roles, Solid (chars name)) (text : List Char) :
    (g.subject text).Pairwise fun a b => chars b.1 <+: chars a.1 := by
  have hsubject : g.subject = (do
      literal ['A']
      optional (literal ['n']) >>= fun _ => blanks
      g.roleAndBlanks) := by
    simp only [bind_assoc]
    rfl
  rw [hsubject, pairwise_bind]
  refine ⟨fun article _ => ?_, pairwise_literal _ _ _⟩
  rw [pairwise_bind]
  refine ⟨fun gap _ => pairwise_roleAndBlanks hsort gap.2, (pairwise_gap article.2).imp fun hb x _ y hy => ?_⟩
  obtain ⟨rest, hy⟩ := mem_roleAndBlanks hy
  rw [eq_nil_of_mem_oneOf hsolid hy hb]
  exact List.nil_prefix

/-- Of the values read behind a subject, the one that counts is about the longest subject. -/
lemma subject_prefix_of_whole? {α : Type} (hsort : IsSorted g.roles) (hsolid : ∀ name ∈ g.roles, Solid (chars name))
    {f : String → Reader α} (subject : α → String) (hf : ∀ role, Yields (subject · = role) (f role)) {a b : α}
    (ha : whole? (g.subject >>= f) line = some a) (hb : (b, []) ∈ (g.subject >>= f) line) :
    chars (subject b) <+: chars (subject a) := by
  obtain ⟨before, way, after, hsplit, hway, hbefore⟩ := exists_first_way ha
  obtain ⟨other, hother, hb⟩ := mem_bind.mp hb
  have hsa : subject a = way.1 := hf way.1 way.2 _ hway
  have hsb : subject b = other.1 := hf other.1 other.2 _ hb
  have hpairs := pairwise_subject hsort hsolid line
  rw [hsplit] at hother hpairs
  rw [hsa, hsb]
  rcases List.mem_append.mp hother with ho | ho
  · exact absurd hb (hbefore other ho b)
  · rcases List.mem_cons.mp ho with rfl | ho
    · exact List.prefix_rfl
    · exact (List.pairwise_cons.mp (List.pairwise_append.mp hpairs).2.1).1 other ho

lemma constraint_eq (g : Grammar) : g.constraint = g.subject >>= g.said := by
  simp only [constraint, constraintStart, bind_assoc, pure_bind]
  rfl

lemma onlyOneOf_eq (g : Grammar) : g.onlyOneOf = (do
    let role ← g.subject
    phrase ["MUST", "have", "only"]
    blanks
    phrase ["one", "of"]
    blanks
    let names ← quotedList "and" quotedNonempty
    ending
    pure (.onlyOneOf role (quotedItems names))) := by
  simp only [onlyOneOf, onlyOneStart, bind_assoc, pure_bind]

section

variable (hsort : IsSorted g.roles) (hsolid : ∀ name ∈ g.roles, Solid (chars name))

include hsort hsolid

lemma role_prefix_of_constraint {s other : ConstraintSentence} (h : whole? g.constraint line = some s)
    (ho : (other, []) ∈ g.constraint line) : chars other.role <+: chars s.role := by
  rw [constraint_eq] at h ho
  exact subject_prefix_of_whole? hsort hsolid ConstraintSentence.role (yields_said g) h ho

lemma role_prefix_of_onlyOneOf {role role' : String} {fields fields' : List String}
    (h : whole? g.onlyOneOf line = some (.onlyOneOf role fields))
    (ho : (.onlyOneOf role' fields', []) ∈ g.onlyOneOf line) : chars role' <+: chars role := by
  rw [onlyOneOf_eq] at h ho
  refine subject_prefix_of_whole? hsort hsolid (fun s => s.subject?.getD "") (fun role => ?_) h ho
  exact .after _ fun _ => .after _ fun _ => .after _ fun _ => .after _ fun _ => .after _ fun _ =>
    .after _ fun _ => .pure rfl

lemma role_prefix_of_roleDefinition {d other : RoleDefinition} (h : whole? g.roleDefinition line = some d)
    (ho : (other, []) ∈ g.roleDefinition line) : chars other.role <+: chars d.role := by
  have hgiven (role : String) (condition : RoleCondition) : Yields (·.role = role) (givenRole role condition) :=
    .after _ fun _ => .after _ fun _ => .after _ fun _ => .after _ fun _ => .after _ fun _ => .pure rfl
  rw [roleDefinition_eq] at h ho
  exact subject_prefix_of_whole? hsort hsolid RoleDefinition.role (fun role => .after _ fun _ => hgiven role _) h ho

/-- Whatever sentence of its form a line can be read as, its subject starts the subject of the one that is found. -/
lemma subject_prefix {s other : Sentence} {role role' : String} (h : g.parse? line = some s)
    (hs : s.subject? = some role) (hr : g.Reads line other) (hform : other.form = s.form)
    (ho : other.subject? = some role') : chars role' <+: chars role := by
  have hread := readAs?_of_parse? h
  cases s with
  | constraint s =>
    obtain ⟨c, hc, he⟩ := Option.map_eq_some_iff.mp hread
    obtain rfl := Sentence.constraint.inj he
    obtain rfl := Option.some.inj hs
    cases other with
    | constraint other =>
      obtain rfl := Option.some.inj ho
      exact role_prefix_of_constraint hsort hsolid hc hr
    | _ => exact SentenceForm.noConfusion hform
  | onlyOneOf name fields =>
    obtain rfl := Option.some.inj hs
    cases other with
    | onlyOneOf other fields' =>
      obtain rfl := Option.some.inj ho
      exact role_prefix_of_onlyOneOf hsort hsolid hread hr
    | _ => exact SentenceForm.noConfusion hform
  | eachOf roles trailer => exact absurd hs.symm (Option.some_ne_none role)
  | roleDefinition d =>
    obtain ⟨c, hc, he⟩ := Option.map_eq_some_iff.mp hread
    obtain rfl := Sentence.roleDefinition.inj he
    obtain rfl := Option.some.inj hs
    cases other with
    | roleDefinition other =>
      obtain rfl := Option.some.inj ho
      exact role_prefix_of_roleDefinition hsort hsolid hc hr
    | _ => exact SentenceForm.noConfusion hform

end

/-- The subject of a sentence that a line is parsed as is never cut short: the line is a sentence of its form, and
it is none of the same form about a longer known role. -/
theorem parse?_subject_longest {roles : List String} (hroles : ∀ role ∈ roles, Solid (chars role))
    {line : List Char} {s : Sentence} (h : (ofRoles roles).parse? line = some s) {role : String}
    (hs : s.subject? = some role) :
    (ofRoles roles).Reads line s ∧
      ∀ other ∈ roles, role.utf8ByteSize < other.utf8ByteSize →
        ∀ s', s'.form = s.form → s'.subject? = some other → ¬(ofRoles roles).Reads line s' := by
  refine ⟨reads_of_parse? h, ?_⟩
  intro other _ hlonger s' hform ho hr
  have hsolid : ∀ name ∈ (ofRoles roles).roles, Solid (chars name) := fun name hn => hroles name (mem_ofRoles.mp hn)
  have hprefix := subject_prefix (isSorted_ofRoles roles) hsolid h hs hr hform ho
  exact absurd (size_le_of_starting hprefix) (Nat.not_le_of_lt hlonger)

/-- A longer role is given up where the line does not go on behind it. -/
theorem timer_subject_longest :
    let roles := ["Wait State", "Wait State with a"]
    let line := chars "A Wait State with a \"Seconds\" field is a \"Timer\"."
    let s := Sentence.roleDefinition ⟨"Wait State", .fieldPresence "Seconds", "Timer"⟩
    (∀ role ∈ roles, Solid (chars role)) ∧ (ofRoles roles).parse? line = some s ∧
      s.subject? = some "Wait State" ∧ chars "A Wait State with a " <+: line ∧
      ∀ s', s'.form = .roleDefinition → s'.subject? = some "Wait State with a" →
        ¬(ofRoles roles).Reads line s' := by
  intro roles line s
  have hroles : ∀ role ∈ roles, Solid (chars role) := by decide
  have hparse : (ofRoles roles).parse? line = some s := by decide +kernel
  have hlongest := (parse?_subject_longest hroles hparse rfl).2 "Wait State with a" (by simp [roles]) (by decide)
  exact ⟨hroles, hparse, rfl, by decide, hlongest⟩

end Grammar

end ProseSchema
