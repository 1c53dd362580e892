import ProseSchema.Proofs.Drafts
import ProseSchema.Proofs.FirstQuote

/-!
# Roles without quotes

What is read between two quotes has none itself. Roles are introduced between quotes, so no role of a draft that a
rule text is read into has one.
-/

namespace ProseSchema

open Reader

/-- The role has no quote. -/
def IsQuoteless (role : String) : Prop :=
  '"' ∉ chars role

lemma isQuoteless_ofList {content : List Char} (h : '"' ∉ content) : IsQuoteless (String.ofList content) := by
  rwa [IsQuoteless, chars_eq_toList, String.toList_ofList]

lemma yields_rootDeclaration : Yields IsQuoteless rootDeclaration :=
  .after _ fun _ => .after _ fun _ => .after _ fun _ => Yields.quotedNonempty.bind fun _ hrole =>
    .after _ fun _ => .pure (isQuoteless_ofList hrole)

namespace Grammar

lemma yields_childClause : Yields (fun clause => IsQuoteless clause.role) childClause := by
  have hclause : Yields (fun clause : String → ChildClause => ∀ role, (clause role).role = role) (firstOf [
      do
        phrase ["its", "value"]
        pure ChildClause.value,
      do
        literal (chars "each")
        blanks
        firstOf [literal (chars "field"), literal (chars "element")]
        pure ChildClause.each]) := by
    apply Yields.firstOf
    simp only [List.forall_mem_cons]
    exact ⟨.after _ fun _ => .pure fun _ => rfl,
      .after _ fun _ => .after _ fun _ => .after _ fun _ => .pure fun _ => rfl, List.forall_mem_nil _⟩
  refine .after _ fun _ => .after _ fun _ => hclause.bind fun clause hc => ?_
  refine .after _ fun _ => .after _ fun _ => .after _ fun _ => .after _ fun _ => ?_
  refine Yields.quotedNonempty.bind fun role hrole => .pure ?_
  rw [hc]
  exact isQuoteless_ofList hrole

variable {g : Grammar}

lemma yields_constraint : Yields (fun s => ∀ role ∈ s.newRoles, IsQuoteless role) g.constraint := by
  refine .after _ fun _ => .after _ fun _ => .after _ fun _ => .after _ fun _ => ?_
  refine yields_childClause.optional.bind fun child hchild => .after _ fun _ => .pure ?_
  intro role hr
  rw [ConstraintSentence.newRoles, Option.mem_toList, Option.map_eq_some_iff] at hr
  obtain ⟨clause, hclause, rfl⟩ := hr
  exact hchild clause hclause

lemma yields_roleDefinition : Yields (fun d => IsQuoteless d.newRole) g.roleDefinition :=
  .after _ fun _ => .after _ fun _ => .after _ fun _ => .after _ fun _ => .after _ fun _ =>
    Yields.quotedNonempty.bind fun _ hrole => .after _ fun _ => .pure (isQuoteless_ofList hrole)

lemma yields_onlyOneOf : Yields (fun s => ∃ role fields, s = .onlyOneOf role fields) g.onlyOneOf :=
  .after _ fun _ => .after _ fun _ => .after _ fun _ => .after _ fun _ => .after _ fun _ => .pure ⟨_, _, rfl⟩

lemma yields_eachOf : Yields (fun s => ∃ text trailer, s = .eachOf (Enumeration.mentions g.roles text) trailer)
    g.eachOf :=
  .after _ fun _ => .after _ fun _ => .after _ fun _ => .after _ fun _ => .after _ fun _ => .pure ⟨_, _, rfl⟩

/-- The whole line can be read as the sentence. -/
def Reads (g : Grammar) (line : List Char) : Sentence → Prop
  | .constraint s => (s, []) ∈ g.constraint line
  | .onlyOneOf role fields => (.onlyOneOf role fields, []) ∈ g.onlyOneOf line
  | .eachOf roles trailer => (.eachOf roles trailer, []) ∈ g.eachOf line
  | .roleDefinition d => (d, []) ∈ g.roleDefinition line

lemma reads_of_parse? {line : List Char} {s : Sentence} (h : g.parse? line = some s) : g.Reads line s := by
  rw [parse?_eq] at h
  split at h
  · obtain ⟨c, hc, rfl⟩ := Option.map_eq_some_iff.mp h
    exact mem_of_whole? hc
  · split at h
    · have hm := mem_of_whole? h
      obtain ⟨role, fields, rfl⟩ : ∃ role fields, s = .onlyOneOf role fields := yields_onlyOneOf _ _ hm
      exact hm
    · rcases Option.or_eq_some_iff.mp h with h | ⟨_, h⟩
      · have hm := mem_of_whole? h
        obtain ⟨_, _, rfl⟩ : ∃ text trailer, s = .eachOf (Enumeration.mentions g.roles text) trailer :=
          yields_eachOf _ _ hm
        exact hm
      · obtain ⟨d, hd, rfl⟩ := Option.map_eq_some_iff.mp h
        exact mem_of_whole? hd

/-- The roles that a sentence introduces have no quotes. -/
lemma isQuoteless_newRoles {line : List Char} {s : Sentence} (h : g.Reads line s) :
    ∀ role ∈ s.newRoles, IsQuoteless role := by
  cases s with
  | constraint c => exact yields_constraint _ _ h
  | roleDefinition d => exact List.forall_mem_singleton.mpr (yields_roleDefinition _ _ h)
  | _ => exact List.forall_mem_nil _

section

variable {p : String → Prop} (hp : ∀ name ∈ g.roles, p name) (hempty : g.roles = [] → p "")

include hp hempty

lemma yields_oneOf : Yields p (Enumeration.oneOf g.roles) := by
  apply Yields.firstOf
  intro r hr
  obtain ⟨name, hn, rfl⟩ := List.mem_map.mp hr
  refine .after _ fun _ => .pure ?_
  split at hn
  · next he =>
    obtain rfl := List.mem_singleton.mp hn
    exact hempty (List.isEmpty_iff.mp he)
  · exact hp name hn

lemma yields_mention : Yields p (Enumeration.mention g.roles) :=
  .after _ fun _ => (yields_oneOf hp hempty).bind fun _ hname => .after _ fun _ => .pure hname

/-- Only names are mentioned. -/
lemma forall_mem_mentionsFrom (before : Option Char) (skip : Nat) (text : List Char) :
    ∀ role ∈ Enumeration.mentionsFrom g.roles before skip text, p role := by
  induction text generalizing before skip with
  | nil => cases skip <;> simp [Enumeration.mentionsFrom]
  | cons c text ih =>
    cases skip with
    | succ skip => exact ih _ _
    | zero =>
      rw [Enumeration.mentionsFrom]
      split
      · next name rest hm =>
        refine List.forall_mem_cons.mpr ⟨?_, ih _ _⟩
        split at hm
        · simp at hm
        · exact yields_mention hp hempty _ _ (List.mem_of_head? hm)
      · exact ih _ _

/-- Roles that a sentence is said of are names. -/
lemma forall_mem_of_eachOf {line : List Char} {roles : List String} {trailer : String}
    (h : g.Reads line (.eachOf roles trailer)) : ∀ role ∈ roles, p role := by
  obtain ⟨text, _, he⟩ : ∃ text other, Sentence.eachOf roles trailer =
      .eachOf (Enumeration.mentions g.roles text) other := yields_eachOf _ _ h
  rw [(Sentence.eachOf.inj he).1]
  exact forall_mem_mentionsFrom hp hempty none 0 text

end

section

variable (hg : ∀ name ∈ g.roles, IsQuoteless name)

include hg

/-- The roles that a sentence is said of have no quotes. -/
lemma isQuoteless_of_eachOf {line : List Char} {roles : List String} {trailer : String}
    (h : g.Reads line (.eachOf roles trailer)) : ∀ role ∈ roles, IsQuoteless role :=
  forall_mem_of_eachOf hg (fun _ => List.not_mem_nil) h

/-- A sentence about several roles ends in its trailer. -/
lemma trailer_suffix {line : List Char} {roles : List String} {trailer : String}
    (h : g.Reads line (.eachOf roles trailer)) : chars trailer <:+ line := by
  have hb : Avoids '"' blanks := Avoids.blanks isSpace_quote
  have hwords : Avoids '"' (phrase ["Each", "of"]) := Avoids.phrase (by decide) isSpace_quote
  obtain ⟨first, hfirst, h⟩ := mem_bind.mp h
  obtain ⟨second, hsecond, h⟩ := mem_bind.mp h
  obtain ⟨third, hthird, h⟩ := mem_bind.mp h
  obtain ⟨fourth, hfourth, h⟩ := mem_bind.mp h
  obtain ⟨last, hlast, h⟩ := mem_bind.mp h
  obtain rfl := List.mem_singleton.mp hlast
  have hs := List.mem_singleton.mp h
  rw [Prod.mk.injEq, Sentence.eachOf.injEq] at hs
  have hempty : fourth.2.dropWhile (· ≠ '\n') = [] := hs.2.symm
  have ht : chars trailer = fourth.2 := by
    rw [hs.1.2, chars_eq_toList, String.toList_ofList]
    exact List.takeWhile_eq_self_iff.mpr (List.dropWhile_eq_nil_iff.mp hempty)
  rw [ht]
  exact (hb.suffix hfourth).trans (((avoids_roleList hg (by decide)).suffix hthird).trans
    ((hb.suffix hsecond).trans (hwords.suffix hfirst)))

end

end Grammar

namespace Draft

/-- No role of the draft has a quote. -/
def Quoteless (draft : Draft) : Prop :=
  ∀ role ∈ draft.roles, IsQuoteless role

namespace Quoteless

variable {library : PatternLibrary} {draft : Draft}

lemma grammar (h : draft.Quoteless) : ∀ name ∈ draft.grammar.roles, IsQuoteless name :=
  fun name hn => h name (Grammar.mem_ofRoles.mp hn)

lemma say (h : draft.Quoteless) {s : Sentence} (hs : ∀ role ∈ s.newRoles, IsQuoteless role) :
    (draft.say s).Quoteless := by
  intro role hr
  rcases mem_learnAll.mp hr with hr | hr
  · exact h role hr
  · exact hs role hr

lemma addLine (h : draft.Quoteless) {number : Nat} {line : List Char} {after : Draft}
    (ha : draft.addLine library number line = .ok after) : after.Quoteless := by
  obtain ⟨s, hs, rfl, _⟩ := addLine_eq_say ha
  exact h.say (Grammar.isQuoteless_newRoles (Grammar.reads_of_parse? hs))

lemma add (h : draft.Quoteless) {number : Nat} {line : List Char} {after : Draft}
    (ha : draft.add library number line = .ok after) : after.Quoteless := by
  unfold Draft.add at ha
  split at ha
  · next roles trailer _ =>
    clear * - h ha
    induction roles generalizing draft with
    | nil =>
      obtain rfl := Except.ok.inj ha
      exact h
    | cons role roles ih =>
      rw [List.foldlM_cons] at ha
      obtain ⟨next, hl, ha⟩ := ok_of_bind_eq_ok ha
      exact ih (h.addLine hl) ha
  · exact h.addLine ha

end Quoteless

end Draft

namespace RuleSet

variable {library : PatternLibrary}

lemma quoteless_of_step {start draft : Option Draft} (h : ∀ d ∈ start, d.Quoteless) {number : Nat}
    {line : List Char} (hr : step library start number line = .ok draft) : ∀ d ∈ draft, d.Quoteless := by
  unfold step at hr
  split at hr
  · obtain rfl := Except.ok.inj hr
    exact h
  · split at hr
    · next root hroot =>
      obtain ⟨first, hfirst, rfl⟩ := ok_of_map_eq_ok hr
      obtain rfl := Draft.built_eq_ok hfirst
      rintro _ ⟨⟩
      exact List.forall_mem_singleton.mpr (yields_rootDeclaration.of_search? hroot)
    · simp at hr
    · next d _ =>
      obtain ⟨after, ha, rfl⟩ := ok_of_map_eq_ok hr
      rintro _ ⟨⟩
      exact (h d rfl).add ha
    · simp at hr

/-- No role of a draft that a text is read into has a quote. -/
lemma quoteless_of_read {start draft : Option Draft} (h : ∀ d ∈ start, d.Quoteless) {number : Nat}
    {text : List (List Char)} (hr : read library start number text = .ok draft) : ∀ d ∈ draft, d.Quoteless := by
  induction text generalizing start number with
  | nil =>
    obtain rfl := Except.ok.inj hr
    exact h
  | cons line text ih =>
    obtain ⟨next, hs, hr⟩ := ok_of_bind_eq_ok hr
    exact ih (quoteless_of_step h hs) hr

end RuleSet

end ProseSchema
