import ProseSchema.Proofs.LineNumbers
import ProseSchema.Proofs.QuotelessRoles

/-!
# Sentences about several roles

A sentence that is said of each of several roles is short for one line per role. A rule text may as well have
those lines in its place.
-/

namespace ProseSchema

open Reader

variable {library : PatternLibrary}

namespace Grammar

/-- A line that says something of a role is not said of several roles. -/
lemma eachOf_spokenOf (g : Grammar) (role trailer : String) : g.eachOf (Draft.spokenOf role trailer) = [] := by
  rw [List.eq_nil_iff_forall_not_mem]
  intro way hw
  obtain ⟨_, hphrase, _⟩ := mem_bind.mp hw
  obtain ⟨_, heach, _⟩ := mem_bind.mp hphrase
  have he := mem_literal heach
  simp [Draft.spokenOf] at he

end Grammar

lemma RuleSet.step_some {draft : Draft} {number : Nat} {line : List Char} (hblank : isBlank line = false) :
    step library (some draft) number line =
      match rootRole? line with
      | some _ => .error (.duplicateRoot number)
      | none => some <$> draft.add library number line := by
  unfold step
  rw [hblank, if_neg (by simp)]
  cases rootRole? line <;> rfl

namespace Draft

lemma add_spokenOf (draft : Draft) (number : Nat) (role trailer : String) :
    draft.add library number (spokenOf role trailer) = draft.addLine library number (spokenOf role trailer) := by
  rw [add, addLine]
  split
  · next roles other hp =>
    have hr : (Sentence.eachOf roles other, []) ∈ draft.grammar.eachOf (spokenOf role trailer) :=
      Grammar.reads_of_parse? hp
    rw [Grammar.eachOf_spokenOf] at hr
    exact absurd hr List.not_mem_nil
  · rfl

variable {draft : Draft}

section

variable (hd : draft.Quoteless)

include hd

/-- The first quote of a line that is entered stands where sentences have it. -/
lemma firstQuote_of_addLine {number : Nat} {line : List Char} {after : Draft}
    (h : draft.addLine library number line = .ok after) :
    ∃ u v, line = u ++ '"' :: v ∧ '"' ∉ u ∧ OpensSentence u := by
  unfold addLine at h
  cases hs : draft.grammar.parse? line with
  | none => simp [hs, addOne] at h
  | some s =>
    have hr := Grammar.reads_of_parse? hs
    rw [hs] at h
    cases s with
    | constraint c => exact Grammar.firstQuote_constraint hd.grammar line (List.ne_nil_of_mem hr)
    | onlyOneOf role fields => exact Grammar.firstQuote_onlyOneOf hd.grammar line (List.ne_nil_of_mem hr)
    | eachOf roles trailer => simp [addOne] at h
    | roleDefinition d => exact Grammar.firstQuote_roleDefinition hd.grammar line (List.ne_nil_of_mem hr)

/-- A line that says a trailer of a role has the same result as a line of the text and in place of one. -/
lemma sameResult_spokenOf {role trailer : String} (hr : IsQuoteless role)
    (ht : ∀ v, v <:+ chars trailer → rootDeclaration v = []) (n m : Nat) :
    SameResult (some <$> draft.addLine library n (spokenOf role trailer))
      (RuleSet.step library (some draft) m (spokenOf role trailer)) := by
  have hblank : isBlank (spokenOf role trailer) = false := by
    simp [isBlank, spokenOf]
  rw [RuleSet.step_some hblank]
  cases hroot : rootRole? (spokenOf role trailer) with
  | none =>
    rw [add_spokenOf]
    exact (sameResult_addLine n m draft _).map _
  | some root =>
    -- The line is refused as a second declaration, so it must not be a sentence.
    cases ha : draft.addLine library n (spokenOf role trailer) with
    | error e => exact .of_error _ _
    | ok after =>
      rw [rootRole?_spokenOf hr ht (firstQuote_of_addLine hd ha)] at hroot
      exact absurd hroot (by simp)

end

/-- Lines that say a trailer of some roles have the same result as lines of the text and in place of one. -/
lemma sameResult_spokenLines (hd : draft.Quoteless) {roles : List String} {trailer : String}
    (hr : ∀ role ∈ roles, IsQuoteless role) (ht : ∀ v, v <:+ chars trailer → rootDeclaration v = [])
    (after : List (List Char)) (n m k : Nat) :
    SameResult (roles.foldlM (fun draft role => draft.addLine library n (spokenOf role trailer)) draft >>= fun next =>
        RuleSet.read library (some next) k after)
      (RuleSet.read library (some draft) m (roles.map (spokenOf · trailer) ++ after)) := by
  induction roles generalizing draft m with
  | nil => exact sameResult_read k m (some draft) after
  | cons role roles ih =>
    rw [List.forall_mem_cons] at hr
    have hstep : SameResult (some <$> draft.addLine library n (spokenOf role trailer)) _ :=
      sameResult_spokenOf hd hr.1 ht n m
    rw [List.foldlM_cons, List.map_cons, List.cons_append, RuleSet.read]
    cases ha : draft.addLine library n (spokenOf role trailer) with
    | error e =>
      rw [ha] at hstep
      cases hs : RuleSet.step library (some draft) m (spokenOf role trailer) with
      | error e' => exact .of_error _ _
      | ok next => exact absurd ((hstep.ok_iff next).mpr hs) (by simp [Functor.map, Except.map])
    | ok next =>
      rw [ha] at hstep
      rw [(hstep.ok_iff (some next)).mp rfl]
      exact ih (hd.addLine ha) hr.2 (m + 1)

end Draft

namespace RuleSet

lemma read_append (draft : Option Draft) (number : Nat) (text later : List (List Char)) :
    read library draft number (text ++ later) =
      read library draft number text >>= fun next => read library next (number + text.length) later := by
  induction text generalizing draft number with
  | nil => rfl
  | cons line text ih =>
    rw [List.cons_append, read, read]
    cases step library draft number line with
    | error e => rfl
    | ok next =>
      change read library next (number + 1) (text ++ later) = _
      rw [ih, List.length_cons, Nat.add_right_comm, Nat.add_assoc]
      rfl

/-- A sentence said of each of several roles is only short for one line per role. Where a text has such a
line and another text has in its place, for each role listed there, the line that says the trailer of that
role, the two texts compile to the same rules, or neither compiles. -/
theorem compile_eachOf {text spelledOut : String} {before after : List (List Char)} {line : List Char}
    {draft : Draft} {roles : List String} {trailer : String}
    (ht : lines text.toList = before ++ line :: after)
    (hs : lines spelledOut.toList = before ++ roles.map (Draft.spokenOf · trailer) ++ after)
    (hread : read library none 1 before = .ok (some draft)) (hblank : isBlank line = false)
    (hroot : rootRole? line = none) (hline : draft.grammar.parse? line = some (.eachOf roles trailer))
    (rules : RuleSet) : compileWith library text = .ok rules ↔ compileWith library spelledOut = .ok rules := by
  have hd : draft.Quoteless := quoteless_of_read (fun _ h => absurd h (by simp)) hread draft rfl
  have hr : draft.grammar.Reads line (.eachOf roles trailer) := Grammar.reads_of_parse? hline
  have hquoteless := Grammar.isQuoteless_of_eachOf hd.grammar hr
  have hfree : ∀ v, v <:+ chars trailer → rootDeclaration v = [] := by
    rw [rootRole?_eq_search?, search?_eq_none_iff] at hroot
    exact fun v hv => hroot v (hv.trans (Grammar.trailer_suffix hd.grammar hr))
  have hadd : draft.add library (1 + before.length) line =
      roles.foldlM (fun draft role =>
        draft.addLine library (1 + before.length) (Draft.spokenOf role trailer)) draft := by
    rw [Draft.add, hline]
  have hlines : SameResult (read library none 1 (before ++ line :: after))
      (read library none 1 (before ++ (roles.map (Draft.spokenOf · trailer) ++ after))) := by
    rw [read_append, read_append, hread]
    change SameResult (read library (some draft) (1 + before.length) (line :: after)) (read library (some draft) _ _)
    have hstep : read library (some draft) (1 + before.length) (line :: after) =
        draft.add library (1 + before.length) line >>= fun next =>
          read library (some next) (1 + before.length + 1) after := by
      rw [read, step_some hblank, hroot]
      cases draft.add library (1 + before.length) line <;> rfl
    rw [hstep, hadd]
    exact Draft.sameResult_spokenLines hd hquoteless hfree after _ _ _
  have hcompile : SameResult (compileWith library text) (compileWith library spelledOut) := by
    rw [compileWith, compileWith, ht, hs, List.append_assoc]
    exact hlines.bind fun _ _ => .refl _
  exact hcompile.ok_iff rules

/-- The lines before the one said of several roles. -/
def flaggedBefore : List String :=
  ["This document specifies a JSON object called a \"Root\".", "A Root is a \"Node\"."]

def flaggedLine : String :=
  "Each of a Root and a Node MUST NOT have a field named \"flag\"."

def flagged : String :=
  "\n".intercalate (flaggedBefore ++ [flaggedLine])

def flaggedSpelledOut : String :=
  "\n".intercalate (flaggedBefore ++ ["A Root MUST NOT have a field named \"flag\".",
    "A Node MUST NOT have a field named \"flag\"."])

def flaggedDraft : Draft :=
  ⟨"Root", ["Root", "Node"], { isA := [("Root", "Node")] }⟩

def flaggedRules : RuleSet :=
  ⟨"Root", RuleTables.insertAll {} (.isA "Root" "Node" :: ["Root", "Node"].flatMap fun role =>
    [.allowed role "flag", .constraint role (.of (.lacksField "flag"))])⟩

theorem flagged_spelledOut :
    compile flagged = .ok flaggedRules ∧ compile flaggedSpelledOut = .ok flaggedRules := by
  have ht : lines (chars flagged) = flaggedBefore.map chars ++ chars flaggedLine :: [] := by decide +kernel
  have hs : lines (chars flaggedSpelledOut) = flaggedBefore.map chars ++
      ["Root", "Node"].map (Draft.spokenOf · "MUST NOT have a field named \"flag\".") ++ [] := by
    decide +kernel
  have hread : read .unlimited none 1 (flaggedBefore.map chars) = .ok (some flaggedDraft) := by decide +kernel
  have hblank : isBlank (chars flaggedLine) = false := by decide +kernel
  have hroot : rootRole? (chars flaggedLine) = none := by decide +kernel
  have hline : flaggedDraft.grammar.parse? (chars flaggedLine) =
      some (.eachOf ["Root", "Node"] "MUST NOT have a field named \"flag\".") := by
    decide +kernel
  have hc : compile flagged = .ok flaggedRules := by
    rw [compile_eq_chars]
    decide +kernel
  rw [chars_eq_toList flagged] at ht
  rw [chars_eq_toList flaggedSpelledOut] at hs
  exact ⟨hc, (compile_eachOf ht hs hread hblank hroot hline flaggedRules).mp hc⟩

end RuleSet

end ProseSchema
