import Mathlib.Data.List.DropRight
import Mathlib.Data.List.Forall2
import ProseSchema.Proofs.QuotelessLines

/-!
# Layout of rule texts

Blank lines are passed over, and white space at the end of a line changes nothing: it is left over behind the
full stop of a sentence, and a sentence about several roles hands it on to the lines that it stands for. Main
statement: two texts whose lines are the same, but for blank ones and for white space at their ends, compile
to the same rules, or fail for the same reason at the same line.
-/

namespace ProseSchema

open Reader

namespace Reader

variable {α γ : Type} {r : Reader α}

/-- What a reader leaves of a text with a quote is more than white space if it takes no quote. -/
lemma LeavesGap.eq_map (hr : LeavesGap r) (hq : Avoids '"' r) {text gap : List Char} (h : '"' ∈ text)
    (hgap : isBlank gap = true) : r (text ++ gap) = (r text).map fun way => (way.1, way.2 ++ gap) := by
  have hall {text : List Char} (h : '"' ∈ text) : goingOn (r text) = r text := by
    rw [goingOn, List.filter_eq_self]
    intro way hw
    obtain ⟨taken, rfl, hn⟩ := hq text way hw
    have hrest : '"' ∈ way.2 := (List.mem_append.mp h).resolve_left hn
    rw [Bool.not_eq_true', ← Bool.not_eq_true]
    exact fun hblank => not_mem_of_isBlank hblank isSpace_quote hrest
  rw [← hall (List.mem_append_left gap h), hr.same text hgap, hall h]

lemma outcome_append_gap (hr : LeavesGap r) (hq : Avoids '"' r) {next : α → List Char → Option γ} {k : γ → γ}
    {text gap : List Char} (h : '"' ∈ text) (hgap : isBlank gap = true)
    (hnext : ∀ a rest, rest <:+ text → '"' ∈ rest → next a (rest ++ gap) = (next a rest).map k) :
    r.outcome next (text ++ gap) = (r.outcome next text).map k := by
  have hways : ∀ way ∈ r text, next way.1 (way.2 ++ gap) = (next way.1 way.2).map k := by
    intro way hw
    obtain ⟨taken, ht, hn⟩ := hq text way hw
    exact hnext way.1 way.2 ⟨taken, ht.symm⟩ ((List.mem_append.mp (ht ▸ h)).resolve_left hn)
  rw [outcome, outcome, hr.eq_map hq h hgap, List.findSome?_map]
  generalize r text = ways at hways ⊢
  induction ways with
  | nil => rfl
  | cons way ways ih =>
    rw [List.forall_mem_cons] at hways
    rw [List.findSome?_cons, List.findSome?_cons, Function.comp_apply, hways.1, ih hways.2]
    cases next way.1 way.2 <;> rfl

end Reader

/-- The sentence as it is read from a line with more white space at the end. -/
def Sentence.withGap (gap : List Char) : Sentence → Sentence
  | .eachOf roles trailer => .eachOf roles (trailer ++ String.ofList gap)
  | s => s

namespace Grammar

variable {g : Grammar} (hg : ∀ name ∈ g.roles, '"' ∉ chars name) {line gap : List Char}

include hg

lemma whole?_eachOf_append (h : '"' ∈ line) (hn : '\n' ∉ line ++ gap) (hgap : isBlank gap = true) :
    whole? g.eachOf (line ++ gap) = (whole? g.eachOf line).map (Sentence.withGap gap) := by
  have hb : Avoids '"' blanks := Avoids.blanks isSpace_quote
  have hwords : Avoids '"' (phrase ["Each", "of"]) := Avoids.phrase (by decide) isSpace_quote
  have htrailer (roles : List String) {rest : List Char} (hrest : '\n' ∉ rest) :
      (span (· ≠ '\n') >>= fun trailer => pure (.eachOf roles (String.ofList trailer)) : Reader Sentence).outcome
        ended rest = some (.eachOf roles (String.ofList rest)) := by
    have hall : ∀ c ∈ rest, decide (c ≠ '\n') = true := by
      intro c hc
      rw [decide_eq_true_eq]
      rintro rfl
      exact hrest hc
    rw [outcome_bind, outcome_span, outcome_pure, List.takeWhile_eq_self_iff.mpr hall,
      List.dropWhile_eq_nil_iff.mpr hall]
    rfl
  rw [whole?_eq_outcome, whole?_eq_outcome]
  simp only [eachOf, outcome_bind]
  refine outcome_append_gap (.phrase _) hwords h hgap fun _ rest hr h => ?_
  refine outcome_append_gap .blanks hb h hgap fun _ rest' hr' h => ?_
  refine outcome_append_gap (g.leavesGap_roleList _) (avoids_roleList hg (by decide)) h hgap fun roles rest'' hr'' h => ?_
  refine outcome_append_gap .blanks hb h hgap fun _ last hlast h => ?_
  have hsuffix : last ++ gap <:+ line ++ gap := by
    obtain ⟨front, hfront⟩ := hlast.trans (hr''.trans (hr'.trans hr))
    exact ⟨front, by rw [← hfront, List.append_assoc]⟩
  have hln : '\n' ∉ last ++ gap := fun hm => hn (hsuffix.subset hm)
  have hspan := htrailer (Enumeration.mentions g.roles roles) hln
  have hspan' := htrailer (Enumeration.mentions g.roles roles) fun hm => hln (List.mem_append_left gap hm)
  rw [← outcome_bind, ← outcome_bind, hspan, hspan']
  simp [Sentence.withGap]

/-- White space at the end of a line with a quote shows in the trailer of a sentence about several roles
only. -/
lemma parse?_append (h : '"' ∈ line) (hgap : isBlank gap = true)
    (heach : whole? g.eachOf (line ++ gap) = (whole? g.eachOf line).map (Sentence.withGap gap)) :
    g.parse? (line ++ gap) = (g.parse? line).map (Sentence.withGap gap) := by
  have honly : Avoids '"' g.onlyOneStart := (avoids_subject hg).bind fun _ =>
    (Avoids.phrase (by decide) isSpace_quote).bind fun _ => (Avoids.blanks isSpace_quote).bind fun _ => Takes.pure _
  have hstart : g.constraintStart (line ++ gap) ≠ [] ↔ g.constraintStart line ≠ [] := by
    rw [g.leavesGap_constraintStart.eq_map (avoids_constraintStart hg) h hgap, ne_eq, List.map_eq_nil_iff]
  have honlyStart : g.onlyOneStart (line ++ gap) ≠ [] ↔ g.onlyOneStart line ≠ [] := by
    rw [g.leavesGap_onlyOneStart.eq_map honly h hgap, ne_eq, List.map_eq_nil_iff]
  have hfull : ((whole? g.constraint line).map Sentence.constraint).map (Sentence.withGap gap) =
      (whole? g.constraint line).map .constraint := Option.map_map _ _ _
  have hdefinition : ((whole? g.roleDefinition line).map Sentence.roleDefinition).map (Sentence.withGap gap) =
      (whole? g.roleDefinition line).map .roleDefinition := Option.map_map _ _ _
  have honlyOne : (whole? g.onlyOneOf line).map (Sentence.withGap gap) = whole? g.onlyOneOf line := by
    cases hs : whole? g.onlyOneOf line with
    | none => rfl
    | some s =>
      obtain ⟨role, fields, rfl⟩ : ∃ role fields, s = .onlyOneOf role fields := yields_onlyOneOf _ _ (mem_of_whole? hs)
      rfl
  rw [parse?_eq, parse?_eq, g.blind_constraint.append line hgap, g.blind_onlyOneOf.append line hgap,
    g.blind_roleDefinition.append line hgap, heach]
  by_cases hc : g.constraintStart line ≠ []
  · rw [if_pos hc, if_pos (hstart.mpr hc), hfull]
  by_cases ho : g.onlyOneStart line ≠ []
  · rw [if_neg hc, if_neg fun h => hc (hstart.mp h), if_pos ho, if_pos (honlyStart.mpr ho), honlyOne]
  · rw [if_neg hc, if_neg fun h => hc (hstart.mp h), if_neg ho, if_neg fun h => ho (honlyStart.mp h), Option.map_or,
      hdefinition]

end Grammar

namespace Draft

variable {library : PatternLibrary} {draft : Draft}

lemma sameOutcome_withGap (draft : Draft) (n m : Nat) (line other gap gap' : List Char) (s : Option Sentence) :
    SameOutcome (AtLines n m) (draft.addOne library n line (s.map (Sentence.withGap gap)))
      (draft.addOne library m other (s.map (Sentence.withGap gap'))) := by
  match s with
  | some (.eachOf roles trailer) => exact .error (.unrecognizedLine _ _)
  | none | some (.constraint _) | some (.onlyOneOf _ _) | some (.roleDefinition _) =>
    exact sameOutcome_addOne n m draft line other _

lemma spokenOf_append (role trailer : String) (gap : List Char) :
    spokenOf role (trailer ++ String.ofList gap) = spokenOf role trailer ++ gap := by
  simp [spokenOf]

section

variable {gap gap' : List Char} (hgap : isBlank gap = true) (hgap' : isBlank gap' = true) (n m : Nat)

include hgap hgap'

lemma sameOutcome_spokenOf (hd : draft.Quoteless) (role trailer : String) :
    SameOutcome (AtLines n m) (draft.addLine library n (spokenOf role trailer ++ gap))
      (draft.addLine library m (spokenOf role trailer ++ gap')) := by
  by_cases h : '"' ∈ spokenOf role trailer
  · have heach (gap : List Char) : whole? draft.grammar.eachOf (spokenOf role trailer ++ gap) =
        (whole? draft.grammar.eachOf (spokenOf role trailer)).map (Sentence.withGap gap) := by
      rw [whole?_eq_outcome, whole?_eq_outcome, ← spokenOf_append, outcome_eq_none (Grammar.eachOf_spokenOf _ _ _),
        outcome_eq_none (Grammar.eachOf_spokenOf _ _ _)]
      rfl
    rw [addLine, addLine, Grammar.parse?_append hd.grammar h hgap (heach gap),
      Grammar.parse?_append hd.grammar h hgap' (heach gap')]
    exact sameOutcome_withGap _ _ _ _ _ _ _ _
  · have hn {gap : List Char} (hgap : isBlank gap = true) : '"' ∉ spokenOf role trailer ++ gap :=
      List.not_mem_append h (not_mem_of_isBlank hgap isSpace_quote)
    obtain ⟨text, he⟩ := addLine_of_not_mem hd n (hn hgap)
    obtain ⟨other, he'⟩ := addLine_of_not_mem hd m (hn hgap')
    rw [he, he']
    exact .error (.unrecognizedLine _ _)

lemma sameOutcome_spokenLines (hd : draft.Quoteless) (roles : List String) (trailer : String) :
    SameOutcome (AtLines n m)
      (roles.foldlM (fun draft role => draft.addLine library n (spokenOf role (trailer ++ String.ofList gap))) draft)
      (roles.foldlM (fun draft role => draft.addLine library m (spokenOf role (trailer ++ String.ofList gap')))
        draft) := by
  induction roles generalizing draft with
  | nil => exact .ok _
  | cons role roles ih =>
    rw [List.foldlM_cons, List.foldlM_cons, spokenOf_append, spokenOf_append]
    exact (sameOutcome_spokenOf hgap hgap' n m hd role trailer).bind fun next hnext => ih (hd.addLine hnext)

/-- A line is entered alike whatever white space stands at its end. -/
lemma sameOutcome_add (hd : draft.Quoteless) {line : List Char} (hn : '\n' ∉ line ++ gap)
    (hn' : '\n' ∉ line ++ gap') :
    SameOutcome (AtLines n m) (draft.add library n (line ++ gap)) (draft.add library m (line ++ gap')) := by
  by_cases h : '"' ∈ line
  · unfold add
    rw [Grammar.parse?_append hd.grammar h hgap (Grammar.whole?_eachOf_append hd.grammar h hn hgap),
      Grammar.parse?_append hd.grammar h hgap' (Grammar.whole?_eachOf_append hd.grammar h hn' hgap')]
    match draft.grammar.parse? line with
    | some (.eachOf roles trailer) => exact sameOutcome_spokenLines hgap hgap' n m hd roles trailer
    | none | some (.constraint _) | some (.onlyOneOf _ _) | some (.roleDefinition _) =>
      exact sameOutcome_addOne n m draft _ _ _
  · obtain ⟨text, he⟩ := add_of_not_mem hd n (List.not_mem_append h (not_mem_of_isBlank hgap isSpace_quote))
    obtain ⟨other, he'⟩ := add_of_not_mem hd m (List.not_mem_append h (not_mem_of_isBlank hgap' isSpace_quote))
    rw [he, he']
    exact .error (.unrecognizedLine _ _)

end

end Draft

namespace RuleSet

variable {library : PatternLibrary}

variable (library) in
lemma sameOutcome_step {draft : Option Draft} (hd : ∀ d ∈ draft, d.Quoteless) {line gap gap' : List Char}
    (hblank : isBlank line = false) (hgap : isBlank gap = true) (hgap' : isBlank gap' = true)
    (hn : '\n' ∉ line ++ gap) (hn' : '\n' ∉ line ++ gap') (n m : Nat) :
    SameOutcome (AtLines n m) (step library draft n (line ++ gap)) (step library draft m (line ++ gap')) := by
  unfold step
  rw [isBlank_append, isBlank_append, hblank, Bool.false_and, Bool.false_and, if_neg (by decide), if_neg (by decide),
    blind_rootRole?.append line hgap, blind_rootRole?.append line hgap']
  cases rootRole? line with
  | some root =>
    cases draft with
    | none => exact (sameOutcome_built n m _).map _
    | some d => exact .error .duplicateRoot
  | none =>
    cases draft with
    | none => exact .error .missingRoot
    | some d => exact (Draft.sameOutcome_add hgap hgap' n m (hd d rfl) hn hn').map _

/-- The lines that are not blank, each with its number. -/
def numbered (number : Nat) (text : List (List Char)) : List (List Char × Nat) :=
  (text.zipIdx number).filter fun line => !isBlank line.1

/-- Blank lines are passed over. -/
lemma read_eq_foldlM (draft : Option Draft) (number : Nat) (text : List (List Char)) :
    read library draft number text =
      (numbered number text).foldlM (fun draft line => step library draft line.2 line.1) draft := by
  induction text generalizing draft number with
  | nil => rfl
  | cons line text ih =>
    rw [read, numbered, List.zipIdx_cons, List.filter_cons]
    cases hblank : isBlank line with
    | true =>
      have hstep : step library draft number line = .ok draft := if_pos hblank
      rw [hstep, Bool.not_true, if_neg (by decide)]
      exact ih draft (number + 1)
    | false =>
      rw [Bool.not_false, if_pos rfl, List.foldlM_cons]
      exact congrArg _ (funext fun next => ih next (number + 1))

/-- The errors are the same, and the lines have the same place among the numbers. -/
def AtSamePlace (numbers others : List Nat) (e e' : RuleError) : Prop :=
  ∃ place n m : Nat, numbers[place]? = some n ∧ others[place]? = some m ∧ AtLines n m e e'

/-- The lines are the same but for white space at their ends. -/
def SameContent (line other : List Char × Nat) : Prop :=
  line.1.rdropWhile isSpace = other.1.rdropWhile isSpace

lemma exists_gap (line : List Char) : ∃ gap, isBlank gap = true ∧ line = line.rdropWhile isSpace ++ gap :=
  ⟨line.rtakeWhile isSpace, List.all_eq_true.mpr fun _ hc => List.mem_rtakeWhile_imp hc,
    List.rdropWhile_append_rtakeWhile.symm⟩

variable (library) in
lemma SameContent.sameOutcome_step {line other : List Char × Nat} (h : SameContent line other) {draft : Option Draft}
    (hd : ∀ d ∈ draft, d.Quoteless) (hblank : isBlank line.1 = false) (hn : '\n' ∉ line.1) (hn' : '\n' ∉ other.1) :
    SameOutcome (AtLines line.2 other.2) (step library draft line.2 line.1)
      (step library draft other.2 other.1) := by
  obtain ⟨gap, hgap, hline⟩ := exists_gap line.1
  obtain ⟨gap', hgap', hother⟩ := exists_gap other.1
  rw [← h] at hother
  have hcontent : isBlank (line.1.rdropWhile isSpace) = false := by
    rw [hline, isBlank_append, hgap, Bool.and_true] at hblank
    exact hblank
  rw [hline] at hn
  rw [hother] at hn'
  have hstep := RuleSet.sameOutcome_step library hd hcontent hgap hgap' hn hn' line.2 other.2
  rwa [← hline, ← hother] at hstep

variable (library) in
lemma sameOutcome_read {draft : Option Draft} (hd : ∀ d ∈ draft, d.Quoteless) {text other : List (List Char × Nat)}
    (h : List.Forall₂ SameContent text other)
    (ht : ∀ line ∈ text, isBlank line.1 = false ∧ '\n' ∉ line.1) (ho : ∀ line ∈ other, '\n' ∉ line.1) :
    SameOutcome (AtSamePlace (text.map Prod.snd) (other.map Prod.snd))
      (text.foldlM (fun draft line => step library draft line.2 line.1) draft)
      (other.foldlM (fun draft line => step library draft line.2 line.1) draft) := by
  induction h generalizing draft with
  | nil => exact .ok draft
  | cons hsame hrest ih =>
    rw [List.forall_mem_cons] at ht ho
    rw [List.foldlM_cons, List.foldlM_cons, List.map_cons, List.map_cons]
    have hstep := hsame.sameOutcome_step library hd ht.1.1 ht.1.2 ho.1
    refine (hstep.mono fun e e' he => ⟨0, _, _, rfl, rfl, he⟩).bind fun next hnext => ?_
    refine (ih (quoteless_of_step hd hnext) ht.2 ho.2).mono fun e e' he => ?_
    obtain ⟨place, n, m, hn, hm, he⟩ := he
    exact ⟨place + 1, n, m, hn, hm, he⟩

lemma map_some_ne_none {α : Type} (a : Except RuleError α) : some <$> a ≠ .ok none := by
  cases a <;> simp [Functor.map, Except.map]

/-- A line that is not blank declares the root, if none is declared yet. -/
lemma step_ne_none {draft : Option Draft} {number : Nat} {line : List Char} (h : isBlank line = false) :
    step library draft number line ≠ .ok none := by
  unfold step
  rw [if_neg (by simp [h])]
  cases rootRole? line with
  | some root =>
    cases draft with
    | none => exact map_some_ne_none _
    | some d => simp
  | none =>
    cases draft with
    | none => simp
    | some d => exact map_some_ne_none _

lemma eq_nil_of_read {draft : Option Draft} {text : List (List Char × Nat)}
    (ht : ∀ line ∈ text, isBlank line.1 = false)
    (h : text.foldlM (fun draft line => step library draft line.2 line.1) draft = .ok none) :
    draft = none ∧ text = [] := by
  induction text generalizing draft with
  | nil => exact ⟨Except.ok.inj h, rfl⟩
  | cons line text ih =>
    rw [List.forall_mem_cons] at ht
    rw [List.foldlM_cons] at h
    obtain ⟨next, hnext, h⟩ := ok_of_bind_eq_ok h
    obtain ⟨rfl, -⟩ := ih ht.2 h
    exact absurd hnext (step_ne_none ht.1)

lemma not_mem_of_mem_lines {text line : List Char} (h : line ∈ lines text) : '\n' ∉ line := by
  induction text using lines.induct generalizing line with
  | case1 => exact absurd h List.not_mem_nil
  | case2 text ih | case3 text ih =>
    rw [lines] at h
    rcases List.mem_cons.mp h with rfl | h
    · exact List.not_mem_nil
    · exact ih h
  | case4 c text hne _ hnone ih =>
    rw [lines, hnone, List.mem_singleton] at h
    · rw [h, List.mem_singleton]
      exact fun he => hne he.symm
    all_goals assumption
  | case5 c text hne _ first rest hsome ih =>
    rw [lines, hsome] at h
    · rcases List.mem_cons.mp h with rfl | h
      · rw [List.mem_cons, not_or]
        exact ⟨fun he => hne he.symm, ih (by rw [hsome]; exact List.mem_cons_self)⟩
      · exact ih (by rw [hsome]; exact List.mem_cons_of_mem first h)
    all_goals assumption

lemma of_mem_numbered {number : Nat} {text : List Char} {line : List Char × Nat}
    (h : line ∈ numbered number (lines text)) : isBlank line.1 = false ∧ '\n' ∉ line.1 := by
  obtain ⟨hm, hblank⟩ := List.mem_filter.mp h
  exact ⟨by simpa using hblank, not_mem_of_mem_lines (List.fst_mem_of_mem_zipIdx hm)⟩

/-- The lines of a text that are not blank, without the white space at their ends. -/
def content (text : String) : List (List Char) :=
  (numbered 1 (lines text.toList)).map fun line => line.1.rdropWhile isSpace

def contentNumbers (text : String) : List Nat :=
  (numbered 1 (lines text.toList)).map Prod.snd

/-- The errors are the same and stand at lines of the same place among those that are not blank, or there are
no such lines. -/
inductive Corresponding (text other : String) : RuleError → RuleError → Prop
  | line {e e' : RuleError} (h : AtSamePlace (contentNumbers text) (contentNumbers other) e e') :
      Corresponding text other e e'
  | noLine (h : contentNumbers text = []) (h' : contentNumbers other = []) :
      Corresponding text other (.missingRoot 0) (.missingRoot 0)

/-- The layout of a rule text is irrelevant: blank lines, the ends of lines and white space before them. -/
theorem compile_layout {text other : String} (h : content text = content other) :
    SameOutcome (Corresponding text other) (compileWith library text) (compileWith library other) := by
  have hsame : List.Forall₂ SameContent (numbered 1 (lines text.toList)) (numbered 1 (lines other.toList)) := by
    have hmap : List.Forall₂ (· = ·) (content text) (content other) := by
      rw [h]
      exact List.forall₂_same.mpr fun _ _ => rfl
    rwa [content, content, List.forall₂_map_left_iff, List.forall₂_map_right_iff] at hmap
  have hread := sameOutcome_read library (fun _ hd => absurd hd (Option.not_mem_none _)) hsame
    (fun _ hl => of_mem_numbered hl) (fun _ hl => (of_mem_numbered hl).2)
  rw [compileWith, compileWith, ofLines, ofLines, read_eq_foldlM, read_eq_foldlM]
  refine (hread.mono fun _ _ he => .line he).bind fun draft hdraft => ?_
  cases draft with
  | some draft => exact .ok _
  | none =>
    obtain ⟨-, hnil⟩ := eq_nil_of_read (fun _ hl => (of_mem_numbered hl).1) hdraft
    have hother : numbered 1 (lines other.toList) = [] := List.forall₂_nil_left_iff.mp (hnil ▸ hsame)
    exact .error (.noLine (by rw [contentNumbers, hnil]; rfl) (by rw [contentNumbers, hother]; rfl))

def plainRules : String :=
  "This document specifies a JSON object called a \"Root\".\n" ++
    "A Root MUST have a field named \"n\" whose value MUST be less than ten."

def spacedRules : String :=
  " \r\n\r\nThis document specifies a JSON object called a \"Root\".\t\r\n\n" ++
    "A Root MUST have a field named \"n\" whose value MUST be less than ten.  \r\n"

/-- Both layouts are refused for the same comparison, on the second line and on the fifth one. -/
theorem spacedRules_as_plainRules :
    content plainRules = content spacedRules ∧
      SameOutcome (Corresponding plainRules spacedRules) (compile plainRules) (compile spacedRules) ∧
        compile plainRules = .error (.nonNumericTarget 2 "ten") ∧
          compile spacedRules = .error (.nonNumericTarget 5 "ten") := by
  have h : content plainRules = content spacedRules := by
    rw [content, content, ← chars_eq_toList, ← chars_eq_toList]
    decide +kernel
  refine ⟨h, compile_layout h, ?_, ?_⟩ <;> rw [compile_eq_chars] <;> decide +kernel

end RuleSet

end ProseSchema
