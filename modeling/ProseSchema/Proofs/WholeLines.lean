import ProseSchema.Proofs.LineLayout
import ProseSchema.Proofs.SentenceForms

/-!
# Whole lines

The sentences behind the declaration of the root are read to the end of their lines, and so each of these lines is
one sentence and nothing else, apart from white space at its end. The declaration is searched for, and any text
may stand around it.
-/

namespace ProseSchema

open Reader

namespace Reader

variable {α β : Type}

/-- What a way takes up is read in the same way in front of any other text. -/
def ReadsApart (r : Reader α) : Prop :=
  ∀ text, ∀ way ∈ r text, ∃ taken, text = taken ++ way.2 ∧ ∀ rest, (way.1, rest) ∈ r (taken ++ rest)

namespace ReadsApart

lemma pure (a : α) : ReadsApart (Pure.pure a : Reader α) := by
  intro text way hw
  obtain rfl := List.mem_singleton.mp hw
  exact ⟨[], rfl, fun rest => List.mem_singleton_self _⟩

lemma bind {r : Reader α} {f : α → Reader β} (hr : ReadsApart r) (hf : ∀ a, ReadsApart (f a)) :
    ReadsApart (r >>= f) := by
  intro text way hw
  obtain ⟨first, hfirst, hw⟩ := mem_bind.mp hw
  obtain ⟨u, hu, hread⟩ := hr text first hfirst
  obtain ⟨v, hv, hread'⟩ := hf first.1 first.2 way hw
  refine ⟨u ++ v, by rw [hu, hv, List.append_assoc], fun rest => ?_⟩
  rw [List.append_assoc]
  exact mem_bind.mpr ⟨_, hread _, hread' rest⟩

lemma literal (word : List Char) : ReadsApart (Reader.literal word) :=
  fun _ _ hw => ⟨word, mem_literal hw, mem_literal_append word⟩

lemma blanks : ReadsApart Reader.blanks := by
  intro text way hw
  obtain ⟨gap, ⟨hne, hs⟩, ht⟩ := Enumeration.mem_blanks hw
  exact ⟨gap, ht, mem_blanks_append hne hs⟩

lemma article : ReadsApart Enumeration.article := by
  intro text way hw
  obtain ⟨u, hu, ht⟩ := Enumeration.mem_article hw
  exact ⟨u, ht, hu.mem⟩

lemma phrase (words : List String) : ReadsApart (Reader.phrase words) := by
  induction words with
  | nil => exact pure ()
  | cons word words ih =>
    cases words with
    | nil => exact literal _
    | cons other words => exact (literal _).bind fun _ => blanks.bind fun _ => ih

lemma quotedNonempty : ReadsApart Reader.quotedNonempty := by
  intro text way hw
  have hquote : '"' ∉ way.1 := Yields.quotedNonempty text way hw
  obtain ⟨opened, hopened, hw⟩ := mem_bind.mp hw
  obtain ⟨content, hcontent, hw⟩ := mem_bind.mp hw
  obtain ⟨closed, hclosed, hw⟩ := mem_bind.mp hw
  obtain rfl := List.mem_singleton.mp hw
  obtain ⟨ht, hne⟩ := mem_span1 hcontent
  refine ⟨'"' :: (content.1 ++ ['"']), ?_, fun rest => ?_⟩
  · rw [mem_literal hopened, ht, mem_literal hclosed]
    simp
  · apply List.mem_of_head?
    rw [head?_eq_outcome, List.cons_append, List.append_assoc]
    exact outcome_quotedNonempty _ hquote hne rest

end ReadsApart

end Reader

/-- The text is a root declaration, from its first character to its last. -/
def DeclaresRoot (text : List Char) (root : String) : Prop :=
  (root, []) ∈ rootDeclaration text

lemma readsApart_rootDeclaration : ReadsApart rootDeclaration :=
  (ReadsApart.phrase _).bind fun _ => ReadsApart.blanks.bind fun _ => ReadsApart.article.bind fun _ =>
    ReadsApart.quotedNonempty.bind fun _ => (ReadsApart.literal _).bind fun _ => .pure _

/-- Where a role is found, a declaration of it stands in the line. -/
lemma exists_declaresRoot {line : List Char} {root : String} (h : rootRole? line = some root) :
    ∃ before declaration behind, line = before ++ declaration ++ behind ∧ DeclaresRoot declaration root := by
  obtain ⟨before, after, behind, rfl, hr⟩ := exists_of_search? h
  obtain ⟨declaration, rfl, hread⟩ := readsApart_rootDeclaration after _ hr
  have hapart := hread []
  rw [List.append_nil] at hapart
  exact ⟨before, declaration, behind, (List.append_assoc _ _ _).symm, hapart⟩

namespace Draft

/-- Each line is one whole sentence over the roles that are known there, and the draft becomes another one. A line
about several roles is whole if the lines that it stands for are. -/
inductive Spelled : Draft → List (List Char) → Draft → Prop
  | nil (draft : Draft) : Spelled draft [] draft
  | sentence {draft after : Draft} {line : List Char} {lines : List (List Char)} {s : Sentence}
      (hs : draft.grammar.Reads line s) (hform : s.form ≠ .eachOf) (hlines : Spelled (draft.say s) lines after) :
      Spelled draft (line :: lines) after
  | eachOf {draft said after : Draft} {line : List Char} {lines : List (List Char)} {roles : List String}
      {trailer : String} (hs : draft.grammar.Reads line (.eachOf roles trailer)) (hne : roles ≠ [])
      (hsaid : Spelled draft (roles.map (spokenOf · trailer)) said) (hlines : Spelled said lines after) :
      Spelled draft (line :: lines) after

variable {library : PatternLibrary} {draft after : Draft} {number : Nat}

lemma spelled_of_addLine {role trailer : String}
    (h : draft.addLine library number (spokenOf role trailer) = .ok after)
    {lines : List (List Char)} {last : Draft} (hlines : Spelled after lines last) :
    Spelled draft (spokenOf role trailer :: lines) last := by
  obtain ⟨s, hs, rfl, -⟩ := addLine_eq_say h
  have hread := Grammar.reads_of_parse? hs
  refine .sentence hread ?_ hlines
  intro hform
  cases s with
  | eachOf roles other =>
    have hway : (Sentence.eachOf roles other, []) ∈ draft.grammar.eachOf (spokenOf role trailer) := hread
    rw [Grammar.eachOf_spokenOf] at hway
    exact absurd hway List.not_mem_nil
  | _ => exact SentenceForm.noConfusion hform

lemma spelled_of_addLines {trailer : String} {roles : List String}
    (h : roles.foldlM (fun draft role => draft.addLine library number (spokenOf role trailer)) draft = .ok after) :
    Spelled draft (roles.map (spokenOf · trailer)) after := by
  induction roles generalizing draft with
  | nil =>
    obtain rfl := Except.ok.inj h
    exact .nil _
  | cons role roles ih =>
    rw [List.foldlM_cons] at h
    obtain ⟨next, hnext, h⟩ := ok_of_bind_eq_ok h
    exact spelled_of_addLine hnext (ih h)

/-- A line that is entered is whole. -/
lemma Spelled.cons_of_add {line : List Char} (h : draft.add library number line = .ok after)
    {lines : List (List Char)} {last : Draft} (hlines : Spelled after lines last) : Spelled draft (line :: lines) last := by
  unfold add at h
  cases hp : draft.grammar.parse? line with
  | none => simp [hp, addOne] at h
  | some s =>
    rw [hp] at h
    have hread := Grammar.reads_of_parse? hp
    cases s with
    | eachOf roles trailer => exact .eachOf hread (Grammar.ne_nil_of_eachOf hread) (spelled_of_addLines h) hlines
    | _ =>
      obtain ⟨rfl, -⟩ := addOne_eq_say h
      exact .sentence hread SentenceForm.noConfusion hlines

end Draft

lemma Draft.Spelled.root_eq {draft after : Draft} {lines : List (List Char)} (h : Spelled draft lines after) :
    after.root = draft.root := by
  induction h with
  | nil draft => rfl
  | sentence _ _ _ ih => exact ih.trans (sayAll_root [_])
  | eachOf _ _ _ _ ih ih' => exact ih'.trans ih

namespace RuleSet

variable {library : PatternLibrary}

/-- The lines that are read behind the declaration are whole, and none of them declares a root. -/
lemma spelled_of_read {draft : Draft} {last : Option Draft} {text : List (List Char × Nat)}
    (ht : ∀ line ∈ text, isBlank line.1 = false)
    (h : text.foldlM (fun draft line => step library draft line.2 line.1) (some draft) = .ok last) :
    ∃ after, last = some after ∧ (∀ line ∈ text, rootRole? line.1 = none) ∧
      Draft.Spelled draft (text.map Prod.fst) after := by
  induction text generalizing draft with
  | nil => exact ⟨draft, (Except.ok.inj h).symm, List.forall_mem_nil _, .nil draft⟩
  | cons line text ih =>
    rw [List.forall_mem_cons] at ht
    rw [List.foldlM_cons] at h
    obtain ⟨next, hnext, h⟩ := ok_of_bind_eq_ok h
    rw [step_some ht.1] at hnext
    cases hroot : rootRole? line.1 with
    | some root => simp [hroot] at hnext
    | none =>
      rw [hroot] at hnext
      obtain ⟨said, hadd, rfl⟩ := ok_of_map_eq_ok hnext
      obtain ⟨after, hlast, hroots, hlines⟩ := ih ht.2 h
      exact ⟨after, hlast, List.forall_mem_cons.mpr ⟨hroot, hroots⟩, .cons_of_add hadd hlines⟩

lemma root_of_step_none {number : Nat} {line : List Char} {next : Option Draft} (hblank : isBlank line = false)
    (h : step library none number line = .ok next) :
    ∃ root, rootRole? line = some root ∧ next = some (Draft.start root) := by
  unfold step at h
  rw [hblank, if_neg (by decide)] at h
  cases hroot : rootRole? line with
  | none => simp [hroot] at h
  | some root =>
    rw [hroot] at h
    obtain ⟨first, hfirst, rfl⟩ := ok_of_map_eq_ok h
    exact ⟨root, rfl, congrArg some (Draft.built_eq_ok hfirst)⟩

/-- The lines that are not blank, without the white space at their ends, each with its number. -/
def trimmed (text : String) : List (List Char × Nat) :=
  (numbered 1 (lines text.toList)).map fun line => (line.1.rdropWhile isSpace, line.2)

lemma map_fst_trimmed (text : String) : (trimmed text).map Prod.fst = content text := by
  rw [trimmed, List.map_map]
  rfl

lemma of_mem_trimmed {text : String} {line : List Char × Nat} (h : line ∈ trimmed text) :
    isBlank line.1 = false ∧ '\n' ∉ line.1 := by
  obtain ⟨original, ho, rfl⟩ := List.mem_map.mp h
  obtain ⟨hblank, hn⟩ := of_mem_numbered ho
  obtain ⟨gap, hgap, hline⟩ := exists_gap original.1
  constructor
  · rw [hline, isBlank_append, hgap, Bool.and_true] at hblank
    exact hblank
  · exact fun hm => hn ((List.rdropWhile_prefix isSpace original.1).subset hm)

/-- The trimmed lines are read as the text is. -/
lemma exists_read_trimmed {text : String} {rules : RuleSet} (h : compileWith library text = .ok rules) :
    ∃ draft, (trimmed text).foldlM (fun draft line => step library draft line.2 line.1) none = .ok (some draft) ∧
      rules = ⟨draft.root, draft.tables⟩ := by
  obtain ⟨draft, hread, h⟩ := ok_of_bind_eq_ok h
  cases draft with
  | none => exact absurd h (by simp)
  | some draft =>
    have hsame : List.Forall₂ SameContent (numbered 1 (lines text.toList)) (trimmed text) := by
      rw [trimmed, List.forall₂_map_right_iff, List.forall₂_same]
      exact fun line _ => (List.rdropWhile_idempotent _ _).symm
    have houtcome := sameOutcome_read library (fun _ hd => absurd hd (Option.not_mem_none _)) hsame
      (fun _ hl => of_mem_numbered hl) (fun _ hl => (of_mem_trimmed hl).2)
    rw [read_eq_foldlM] at hread
    exact ⟨draft, (houtcome.sameResult.ok_iff _).mp hread, (Except.ok.inj h).symm⟩

/-- In a rule text that compiles, the first line that is not blank holds a declaration of the root, with some text
before and behind it. Each later line, apart from white space at its end, is from its first character to its last
one sentence of one of the other forms, over the roles known there, and no declaration stands in it. -/
theorem compile_whole_lines {text : String} {rules : RuleSet} (h : compileWith library text = .ok rules) :
    ∃ first rest after, content text = first :: rest ∧
      (∃ before declaration behind, first = before ++ declaration ++ behind ∧
        DeclaresRoot declaration rules.root) ∧
      (∀ line ∈ rest, rootRole? line = none) ∧
      Draft.Spelled (Draft.start rules.root) rest after ∧ after.tables = rules.tables := by
  obtain ⟨draft, hread, rfl⟩ := exists_read_trimmed h
  rw [← map_fst_trimmed]
  have hlines : ∀ line ∈ trimmed text, isBlank line.1 = false := fun _ hl => (of_mem_trimmed hl).1
  generalize trimmed text = lines at hread hlines
  cases lines with
  | nil => exact absurd (Except.ok.inj hread) (by simp)
  | cons line lines =>
    rw [List.forall_mem_cons] at hlines
    rw [List.foldlM_cons] at hread
    obtain ⟨next, hnext, hread⟩ := ok_of_bind_eq_ok hread
    obtain ⟨root, hroot, rfl⟩ := root_of_step_none hlines.1 hnext
    obtain ⟨after, hafter, hroots, hspelled⟩ := spelled_of_read hlines.2 hread
    obtain rfl := Option.some.inj hafter
    obtain rfl : draft.root = root := hspelled.root_eq
    exact ⟨line.1, lines.map Prod.fst, draft, rfl, exists_declaresRoot hroot, List.forall_mem_map.mpr hroots,
      hspelled, rfl⟩

def titled : String :=
  "Draft 2. This document specifies a JSON object called a \"Doc\".\n\n" ++
    "A Doc is a \"Page\". \n" ++
    "Each of a Doc and a Page MAY have a field named \"title\".\t\n"

def titledLines : List (List Char) :=
  [chars "A Doc is a \"Page\".", chars "Each of a Doc and a Page MAY have a field named \"title\"."]

/-- White space at the ends of lines does not matter, and some text stands before the declaration. -/
theorem titled_whole_lines :
    ∃ rules, compile titled = .ok rules ∧ rules.root = "Doc" ∧
      content titled = chars "Draft 2. This document specifies a JSON object called a \"Doc\"." :: titledLines ∧
      ∃ after, Draft.Spelled (Draft.start rules.root) titledLines after ∧ after.tables = rules.tables := by
  have hroot : (compile titled).toOption.map RuleSet.root = some "Doc" := by
    rw [compile_eq_chars]
    decide +kernel
  have hcontent : content titled =
      chars "Draft 2. This document specifies a JSON object called a \"Doc\"." :: titledLines := by
    rw [content, ← chars_eq_toList]
    decide +kernel
  cases hcompile : compile titled with
  | error e => simp [hcompile, Except.toOption] at hroot
  | ok rules =>
    rw [hcompile] at hroot
    obtain ⟨first, rest, after, hlines, -, -, hspelled, htables⟩ := compile_whole_lines hcompile
    rw [hcontent, List.cons.injEq] at hlines
    obtain ⟨-, rfl⟩ := hlines
    exact ⟨rules, rfl, Option.some.inj hroot, hcontent, after, hspelled, htables⟩

def annotated : String :=
  "Note: This document specifies a JSON object called a \"Doc\". Or so."

/-- The one line of the text is no declaration and no sentence, but it has a declaration in it. -/
theorem annotated_not_whole :
    compile annotated = .ok ⟨"Doc", {}⟩ ∧ content annotated = [chars annotated] ∧
      (∀ root, ¬DeclaresRoot (chars annotated) root) ∧
      ∀ roles s, ¬(Grammar.ofRoles roles).Reads (chars annotated) s := by
  have hthis : literal (chars "This") (chars annotated) = [] := by decide +kernel
  have harticle : literal ['A'] (chars annotated) = [] := by decide +kernel
  have heach : literal (chars "Each") (chars annotated) = [] := by decide +kernel
  refine ⟨?_, ?_, ?_, ?_⟩
  · rw [compile_eq_chars]
    decide +kernel
  · rw [content, ← chars_eq_toList]
    decide +kernel
  · intro root hroot
    exact Grammar.ne_nil_of_bind hroot (Grammar.bind_eq_nil hthis)
  · intro roles s hs
    have hsubject : (Grammar.ofRoles roles).subject (chars annotated) = [] := Grammar.bind_eq_nil harticle
    cases s with
    | constraint s => exact Grammar.ne_nil_of_bind hs (Grammar.bind_eq_nil hsubject)
    | onlyOneOf role fields => exact Grammar.ne_nil_of_bind hs (Grammar.bind_eq_nil hsubject)
    | eachOf roles trailer => exact Grammar.ne_nil_of_bind hs (Grammar.bind_eq_nil heach)
    | roleDefinition d => exact Grammar.ne_nil_of_bind hs hsubject

end RuleSet

end ProseSchema
