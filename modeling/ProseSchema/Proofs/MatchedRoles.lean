import ProseSchema.Proofs.QuotelessLines
import ProseSchema.Proofs.SentenceForms

/-!
# Matched roles

A sentence that lists roles is matched as a whole, and its roles are recovered afterwards from the text of the
list. To match the rest of a line a longer role may have to be given up, but the recovery looks at no more than
the list. The two agree where each role that was matched is the longest known role in its place.
-/

namespace ProseSchema

namespace Reader

variable {α β γ : Type}

/-- What is made of a value makes no difference to how a whole text is read. -/
lemma outcome_ended_map (r : Reader α) (f : α → β) (text : List Char) :
    r.outcome (fun a rest => ended (f a) rest) text = (whole? r text).map f := by
  rw [whole?_eq_outcome, outcome, outcome, List.map_findSome?]
  congr 1
  funext way
  obtain ⟨a, rest⟩ := way
  cases rest <;> rfl

end Reader

/-! The text that a list takes up. -/

namespace Enumeration

open Reader

section

variable {connector : String} {names : List String} {text rest after : List Char}
  {places : List (String × List Char)}

lemma continues_commaItem {way : String × List Char} (h : way ∈ commaItem (item true (oneOf names)) text)
    (hc : Continues connector true places rest) (hw : way.2 = rest ++ after) (comma : Bool) :
    way.1 ∈ candidates names ∧
      ∃ taken, Continues connector comma ((way.1, rest) :: places) taken ∧ text = taken ++ after := by
  obtain ⟨first, hfirst, h⟩ := mem_bind.mp h
  obtain ⟨second, hsecond, h⟩ := mem_bind.mp h
  obtain ⟨gap, hg, hgap⟩ := mem_blanks hsecond
  obtain ⟨hname, u, hu, ht⟩ := mem_item h
  refine ⟨hname, _, Continues.more comma hg hu hc, ?_⟩
  rw [mem_literal hfirst, hgap, ht, hw]
  simp

/-- The names between the first and the last continue a list where what stands behind them does. -/
lemma continues_upTo {count : Nat} {way : List String × List Char}
    (h : way ∈ upTo (commaItem (item true (oneOf names))) count text) (hc : Continues connector true places rest)
    (hp : ∀ p ∈ places, p.1 ∈ candidates names) (hw : way.2 = rest ++ after) :
    ∃ placed taken, Continues connector true placed taken ∧ text = taken ++ after ∧
      placed.map Prod.fst = way.1 ++ places.map Prod.fst ∧ ∀ p ∈ placed, p.1 ∈ candidates names := by
  induction count generalizing text way with
  | zero =>
    obtain rfl := List.mem_singleton.mp h
    exact ⟨places, rest, hc, hw, rfl, hp⟩
  | succ count ih =>
    rcases List.mem_append.mp h with h | h
    · obtain ⟨first, hfirst, h⟩ := mem_bind.mp h
      obtain ⟨others, hothers, h⟩ := mem_bind.mp h
      obtain rfl := List.mem_singleton.mp h
      obtain ⟨placed, behind, hplaced, ht, hmap, hnames⟩ := ih hothers hw
      obtain ⟨hname, taken, htaken, htext⟩ := continues_commaItem hfirst hplaced ht true
      exact ⟨(first.1, behind) :: placed, taken, htaken, htext, by simp [hmap],
        List.forall_mem_cons.mpr ⟨hname, hnames⟩⟩
    · obtain rfl := List.mem_singleton.mp h
      exact ⟨places, rest, hc, hw, rfl, hp⟩

lemma continues_tail {way : List String × List Char}
    (h : way ∈ tail connector (item true (oneOf names)) text) :
    ∃ placed taken, Continues connector false placed taken ∧ text = taken ++ way.2 ∧
      placed.map Prod.fst = way.1 ∧ ∀ p ∈ placed, p.1 ∈ candidates names := by
  obtain ⟨others, hothers, h⟩ := mem_bind.mp h
  obtain ⟨second, hsecond, h⟩ := mem_bind.mp h
  obtain ⟨third, hthird, h⟩ := mem_bind.mp h
  obtain ⟨fourth, hfourth, h⟩ := mem_bind.mp h
  obtain ⟨last, hlast, h⟩ := mem_bind.mp h
  obtain rfl := List.mem_singleton.mp h
  obtain ⟨gap, hg, hgap⟩ := mem_blanks hsecond
  obtain ⟨gap', hg', hgap'⟩ := mem_blanks hfourth
  obtain ⟨hname, u, hu, ht⟩ := mem_item hlast
  have hbehind : others.2 = gap ++ (chars connector ++ (gap' ++ (u ++ (chars last.1 ++ last.2)))) := by
    rw [hgap, mem_literal hthird, hgap', ht]
  have hcontinues (comma : Bool) : Continues connector comma [(last.1, [])] ((if comma then [','] else []) ++ gap ++
      (chars connector ++ (gap' ++ (u ++ (chars last.1 ++ []))))) := .last comma hg hg' hu
  rcases List.mem_append.mp hothers with ho | ho
  · obtain ⟨many, hmany, ho⟩ := mem_bind.mp ho
    obtain rfl := List.mem_singleton.mp ho
    obtain ⟨between, hbetween, hm⟩ := mem_bind.mp hmany
    obtain ⟨comma, hcomma, hm⟩ := mem_bind.mp hm
    obtain rfl := List.mem_singleton.mp hm
    obtain ⟨first, hfirst, hb⟩ := mem_bind.mp hbetween
    obtain ⟨more, hmore, hb⟩ := mem_bind.mp hb
    obtain rfl := List.mem_singleton.mp hb
    have hlast' : more.2 = [','] ++ gap ++ (chars connector ++ (gap' ++ (u ++ (chars last.1 ++ [])))) ++ last.2 := by
      rw [mem_literal hcomma, hbehind]
      simp
    obtain ⟨placed, behind, hplaced, hfirst', hmap, hp⟩ :=
      continues_upTo hmore (hcontinues true) (by simpa using hname) hlast'
    obtain ⟨hname', taken, htaken, htext⟩ := continues_commaItem hfirst hplaced hfirst' false
    exact ⟨_, taken, htaken, htext, by simp [hmap], List.forall_mem_cons.mpr ⟨hname', hp⟩⟩
  · obtain rfl := List.mem_singleton.mp ho
    refine ⟨_, _, hcontinues false, ?_, by simp, by simpa using hname⟩
    have htext : text = gap ++ (chars connector ++ (gap' ++ (u ++ (chars last.1 ++ last.2)))) := hbehind
    rw [htext]
    simp

/-- What a list takes up is the text of a list, and the names read stand in it. -/
theorem exists_isList {way : List String × List Char} (h : way ∈ list connector (item true (oneOf names)) text) :
    ∃ placed taken, IsList connector placed taken ∧ text = taken ++ way.2 ∧ placed.map Prod.fst = way.1 ∧
      ∀ p ∈ placed, p.1 ∈ candidates names := by
  obtain ⟨first, hfirst, h⟩ := mem_bind.mp h
  obtain ⟨others, hothers, h⟩ := mem_bind.mp h
  obtain rfl := List.mem_singleton.mp h
  obtain ⟨hname, u, hu, ht⟩ := mem_item hfirst
  rcases List.mem_append.mp hothers with ho | ho
  · obtain ⟨listed, hlisted, ho⟩ := mem_bind.mp ho
    obtain rfl := List.mem_singleton.mp ho
    obtain ⟨placed, taken, hc, htaken, hmap, hp⟩ := continues_tail hlisted
    refine ⟨(first.1, taken) :: placed, _, .intro hu hc, ?_, by simp [hmap],
      List.forall_mem_cons.mpr ⟨hname, hp⟩⟩
    rw [ht, htaken]
    simp
  · obtain rfl := List.mem_singleton.mp ho
    exact ⟨[(first.1, [])], _, .intro hu .stop, by simp [ht], by simp, by simpa using hname⟩

end

end Enumeration

namespace Grammar

open Reader Enumeration

/-! Readers that keep the roles a list is matched as, and the text of the list. -/

def matchedRoles (g : Grammar) (connector : String) : Reader (List String × List Char) :=
  withText (list connector (item true (oneOf g.roles)))

def matchedExclusion (g : Grammar) : Reader (List String × List Char) := do
  phrase ["which", "is", "not"]
  blanks
  let matched ← g.matchedRoles "or"
  blanks
  pure matched

def matchedConstraint (g : Grammar) : Reader (Option (List String × List Char) × ConstraintSentence) := do
  let role ← g.subject
  let matched ← optional g.matchedExclusion
  let start ← modalPhrase role ((matched.map fun m => mentions g.roles m.2).getD [])
  let s ← clauses start
  pure (matched, s)

def matchedEachOf (g : Grammar) : Reader ((List String × List Char) × String) := do
  phrase ["Each", "of"]
  blanks
  let matched ← g.matchedRoles "and"
  blanks
  let trailer ← span (· ≠ '\n')
  pure (matched, String.ofList trailer)

variable {g : Grammar} {line : List Char}

lemma whole?_eachOf : whole? g.eachOf line =
    (whole? g.matchedEachOf line).map fun way => .eachOf (mentions g.roles way.1.2) way.2 := by
  rw [← outcome_ended_map, whole?_eq_outcome]
  simp only [eachOf, matchedEachOf, roleList, matchedRoles, outcome_bind, outcome_map, outcome_pure]

lemma whole?_constraint : whole? g.constraint line = (whole? g.matchedConstraint line).map Prod.snd := by
  rw [← outcome_ended_map, whole?_eq_outcome]
  simp only [constraint, matchedConstraint, constraintStart_eq, exclusion, matchedExclusion, roleList, matchedRoles,
    clauses, outcome_bind, outcome_map, outcome_pure, outcome_optional]
  rfl

/-- A line that is a sentence of one of the two forms is read as such. -/
lemma whole?_of_parse?_eq_constraint {s : ConstraintSentence} (h : g.parse? line = some (.constraint s)) :
    whole? g.constraint line = some s := by
  obtain ⟨c, hc, he⟩ := Option.map_eq_some_iff.mp (readAs?_of_parse? h)
  rw [hc, Sentence.constraint.inj he]

lemma whole?_of_parse?_eq_eachOf {roles : List String} {trailer : String}
    (h : g.parse? line = some (.eachOf roles trailer)) : whole? g.eachOf line = some (.eachOf roles trailer) :=
  readAs?_of_parse? h

/-- An exclusion of a constraint has been read as a list somewhere, and the constraint excludes the roles that are
recovered from it. -/
lemma mem_matchedConstraint {way : (Option (List String × List Char) × ConstraintSentence) × List Char}
    (h : way ∈ g.matchedConstraint line) :
    way.1.2.excluded = (way.1.1.map fun m => mentions g.roles m.2).getD [] ∧
      ∀ matched, way.1.1 = some matched → ∃ text rest, (matched, rest) ∈ g.matchedRoles "or" text := by
  have hmodal (role : String) (excluded : List String) :
      Yields (fun start => start.2.1 = excluded) (modalPhrase role excluded) :=
    .after _ fun _ => .after _ fun _ => .after _ fun _ => .after _ fun _ => .after _ fun _ => .pure rfl
  have hclauses (start : String × List String × Modal) : Yields (·.excluded = start.2.1) (clauses start) :=
    .after _ fun _ => .after _ fun _ => .after _ fun _ => .after _ fun _ => .after _ fun _ => .pure rfl
  obtain ⟨subject, -, h⟩ := mem_bind.mp h
  obtain ⟨listed, hlisted, h⟩ := mem_bind.mp h
  obtain ⟨start, hstart, h⟩ := mem_bind.mp h
  obtain ⟨s, hs, h⟩ := mem_bind.mp h
  obtain rfl := List.mem_singleton.mp h
  refine ⟨(hclauses _ _ _ hs).trans (hmodal _ _ _ _ hstart), fun matched hmatched => ?_⟩
  rcases List.mem_append.mp hlisted with hl | hl
  · obtain ⟨read, hread, hl⟩ := mem_bind.mp hl
    obtain rfl := List.mem_singleton.mp hl
    obtain rfl := Option.some.inj hmatched
    obtain ⟨words, -, hr⟩ := mem_bind.mp hread
    obtain ⟨gap, -, hr⟩ := mem_bind.mp hr
    obtain ⟨roles, hroles, hr⟩ := mem_bind.mp hr
    obtain ⟨gap', -, hr⟩ := mem_bind.mp hr
    obtain rfl := List.mem_singleton.mp hr
    exact ⟨_, _, hroles⟩
  · obtain rfl := List.mem_singleton.mp hl
    exact absurd hmatched (by simp)

lemma mem_matchedEachOf {way : ((List String × List Char) × String) × List Char}
    (h : way ∈ g.matchedEachOf line) : ∃ text rest, (way.1.1, rest) ∈ g.matchedRoles "and" text := by
  obtain ⟨words, -, h⟩ := mem_bind.mp h
  obtain ⟨gap, -, h⟩ := mem_bind.mp h
  obtain ⟨roles, hroles, h⟩ := mem_bind.mp h
  obtain ⟨gap', -, h⟩ := mem_bind.mp h
  obtain ⟨trailer, -, h⟩ := mem_bind.mp h
  obtain rfl := List.mem_singleton.mp h
  exact ⟨_, _, hroles⟩

/-- The text is a list that has been matched as some roles, and other roles have been extracted from it. They
are the same just where each role that was matched is the longest known role in its place. -/
def Recovers (roles : List String) (connector : String) (matched : List String × List Char)
    (extracted : List String) : Prop :=
  ∃ placed, IsList connector placed matched.2 ∧ placed.map Prod.fst = matched.1 ∧
    (extracted = matched.1 ↔ ∀ p ∈ placed, IsLongest roles p.1 p.2)

section

variable {roles : List String} (hroles : ∀ role ∈ roles, chars role ≠ [] ∧ Solid (chars role))

include hroles

lemma recovers_of_mem {connector : String} (hc : connector ∈ ["or", "and"]) {text rest : List Char}
    {matched : List String × List Char} (h : (matched, rest) ∈ (ofRoles roles).matchedRoles connector text) :
    Recovers roles connector matched (mentions (ofRoles roles).roles matched.2) := by
  obtain ⟨way, hway, he⟩ := List.mem_map.mp h
  obtain ⟨placed, taken, hlist, htext, hmap, hp⟩ := exists_isList hway
  have htake : text.take (text.length - way.2.length) = taken := by
    rw [htext, List.length_append, Nat.add_sub_cancel, List.take_left]
  obtain ⟨rfl, rfl⟩ : matched = (way.1, taken) ∧ rest = way.2 := by
    rw [htake] at he
    exact ⟨(Prod.mk.inj he).1.symm, (Prod.mk.inj he).2.symm⟩
  refine ⟨placed, hlist, hmap, ?_⟩
  rw [← hmap]
  exact mentions_eq_iff hroles hc hlist hp

/-- A sentence that lists roles has been matched as a whole, and its roles have been extracted from the text that
the list took up then. They are the roles that the list was matched as just where each of these is the
longest known role in its place. -/
theorem extracted_eq_matched_iff (line : List Char) :
    (∀ extracted trailer, (ofRoles roles).parse? line = some (.eachOf extracted trailer) →
      ∃ matched, whole? (ofRoles roles).matchedEachOf line = some (matched, trailer) ∧
        Recovers roles "and" matched extracted) ∧
    ∀ s, (ofRoles roles).parse? line = some (.constraint s) →
      ∃ exclusion, whole? (ofRoles roles).matchedConstraint line = some (exclusion, s) ∧
        (exclusion = none → s.excluded = []) ∧
        ∀ matched, exclusion = some matched → Recovers roles "or" matched s.excluded := by
  constructor
  · intro extracted trailer h
    have hw := whole?_of_parse?_eq_eachOf h
    rw [whole?_eachOf] at hw
    obtain ⟨⟨matched, trailer'⟩, hm, he⟩ := Option.map_eq_some_iff.mp hw
    obtain ⟨rfl, rfl⟩ := Sentence.eachOf.inj he
    obtain ⟨text, rest, hmem⟩ := mem_matchedEachOf (mem_of_whole? hm)
    exact ⟨matched, hm, recovers_of_mem hroles (by simp) hmem⟩
  · intro s h
    have hw := whole?_of_parse?_eq_constraint h
    rw [whole?_constraint] at hw
    obtain ⟨⟨exclusion, s'⟩, hm, rfl⟩ := Option.map_eq_some_iff.mp hw
    obtain ⟨hexcluded, hmatched⟩ := mem_matchedConstraint (mem_of_whole? hm)
    refine ⟨exclusion, hm, ?_, ?_⟩
    · rintro rfl
      exact hexcluded
    · rintro matched rfl
      obtain ⟨text, rest, hmem⟩ := hmatched matched rfl
      have he : s'.excluded = mentions (ofRoles roles).roles matched.2 := hexcluded
      change Recovers roles "or" matched s'.excluded
      rw [he]
      exact recovers_of_mem hroles (by simp) hmem

end

/-- `Each of a Pass State and a Fail is a "Node".`, where a role that starts the first one is known too. -/
theorem passState_extracted :
    let roles := ["State", "Pass", "Pass State", "Fail"]
    let line := usualWording.line (.eachOf ["Pass State", "Fail"] "is a \"Node\".")
    (∀ role ∈ roles, chars role ≠ [] ∧ Solid (chars role)) ∧
    (ofRoles roles).parse? line = some (.eachOf ["Pass State", "Fail"] "is a \"Node\".") ∧
    ∃ matched, whole? (ofRoles roles).matchedEachOf line = some (matched, "is a \"Node\".") ∧
      Recovers roles "and" matched ["Pass State", "Fail"] := by
  intro roles line
  have hroles : ∀ role ∈ roles, chars role ≠ [] ∧ Solid (chars role) := by decide
  have hparse : (ofRoles roles).parse? line = some (.eachOf ["Pass State", "Fail"] "is a \"Node\".") := by
    decide +kernel
  exact ⟨hroles, hparse, (extracted_eq_matched_iff hroles line).1 _ _ hparse⟩

/-- `A State which is not a Pass or a Fail MUST have a string field named "Next".` is matched as a list of two roles,
of which the first is taken for a longer one, where there is a role for it and the connector behind it. -/
theorem passOr_extracted :
    let roles := ["State", "Pass", "Fail", "Pass or"]
    let line := usualWording.line (nextSentence ["Pass", "Fail"])
    (∀ role ∈ roles, IsRoleName role) ∧
    (ofRoles roles).parse? line = some (nextSentence ["Pass or", "Fail"]) ∧
    (whole? (ofRoles roles).matchedConstraint line).bind Prod.fst =
      some (["Pass", "Fail"], chars "a Pass or a Fail") := by
  decide +kernel

end Grammar

end ProseSchema
