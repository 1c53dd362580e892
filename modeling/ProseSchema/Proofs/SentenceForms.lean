import ProseSchema.Proofs.ModalVerbs
import ProseSchema.Proofs.QuotelessRoles

/-!
# Forms of sentences

A constraint and a choice of fields have their modal verb before the first quote and behind a text without
any, and they go on in different words. A definition of a role has no modal verb there, and a sentence about
several roles starts with another letter. So a line has the full pattern of one form at most, and to decide on a
form by the start of the line misses no sentence.
-/

namespace ProseSchema

open Reader

namespace Grammar

/-! Definitions of roles. -/

lemma firstQuote_after {α β : Type} {d : Char} {r : Reader α} {f : α → Reader β} (hq : Avoids '"' r)
    (hd : Avoids d r) (hf : ∀ a, FirstQuote (d ∉ ·) (f a)) : FirstQuote (d ∉ ·) (r >>= f) :=
  FirstQuote.bind_right (hq.and hd) (fun _ h => h.1) hf fun _ _ hr hu => List.not_mem_append hr.2 hu

/-- Behind its subject a definition of a role goes on up to a quote without a modal verb. -/
lemma firstQuote_definition (role : String) : FirstQuote ('M' ∉ ·)
    (optional (firstOf [valueCondition, presenceCondition]) >>= fun condition =>
      givenRole role (condition.getD .always)) := by
  have hblanks {β : Type} {f : Unit → Reader β} (hf : ∀ a, FirstQuote ('M' ∉ ·) (f a)) :
      FirstQuote ('M' ∉ ·) (blanks >>= f) :=
    firstQuote_after (Avoids.blanks isSpace_quote) (Avoids.blanks (by simp)) hf
  have harticle {β : Type} {f : Unit → Reader β} (hf : ∀ a, FirstQuote ('M' ∉ ·) (f a)) :
      FirstQuote ('M' ∉ ·) (Enumeration.article >>= f) :=
    firstQuote_after (Avoids.article (by decide) isSpace_quote) (Avoids.article (by decide) (by simp)) hf
  have hname {β : Type} (f : List Char → Reader β) : FirstQuote ('M' ∉ ·) (quotedNonempty >>= f) :=
    (FirstQuote.quotedNonempty.bind_left f).mono fun _ h => h ▸ List.not_mem_nil
  refine FirstQuote.optional_bind (FirstQuote.firstOf ?_) ?_
  · simp only [List.forall_mem_cons]
    refine ⟨?_, ?_, List.forall_mem_nil _⟩
    · exact firstQuote_after (Takes.literal (by decide)) (Takes.literal (by decide)) fun _ =>
        hblanks fun _ => hname _
    · exact firstQuote_after (Takes.literal (by decide)) (Takes.literal (by decide)) fun _ =>
        hblanks fun _ => harticle fun _ => hname _
  · exact firstQuote_after (Takes.literal (by decide)) (Takes.literal (by decide)) fun _ =>
      hblanks fun _ => harticle fun _ => hname _

end Grammar

/-! Forms. -/

inductive SentenceForm
  | constraint
  | onlyOneOf
  | eachOf
  | roleDefinition
  deriving DecidableEq

def Sentence.form : Sentence → SentenceForm
  | .constraint _ => .constraint
  | .onlyOneOf _ _ => .onlyOneOf
  | .eachOf _ _ => .eachOf
  | .roleDefinition _ => .roleDefinition

namespace Grammar

/-- The sentence that a line is by the full pattern of a form, whatever the other forms make of the line. -/
def readAs? (g : Grammar) (line : List Char) : SentenceForm → Option Sentence
  | .constraint => (whole? g.constraint line).map .constraint
  | .onlyOneOf => whole? g.onlyOneOf line
  | .eachOf => whole? g.eachOf line
  | .roleDefinition => (whole? g.roleDefinition line).map .roleDefinition

/-- The line starts as those of a form do, or for the two forms that are told by the whole line, is one. -/
def Leads (g : Grammar) (line : List Char) : SentenceForm → Prop
  | .constraint => g.constraintStart line ≠ []
  | .onlyOneOf => g.onlyOneStart line ≠ []
  | .eachOf => g.eachOf line ≠ []
  | .roleDefinition => g.roleDefinition line ≠ []

variable {g : Grammar} {line : List Char}

lemma ne_nil_of_bind {α β : Type} {r : Reader α} {f : α → Reader β} {text : List Char} {way : β × List Char}
    (h : way ∈ (r >>= f) text) : r text ≠ [] := by
  obtain ⟨first, hfirst, -⟩ := mem_bind.mp h
  exact List.ne_nil_of_mem hfirst

lemma reads_of_readAs? {form : SentenceForm} {s : Sentence} (h : g.readAs? line form = some s) :
    form = s.form ∧ g.Reads line s := by
  cases form with
  | constraint =>
    obtain ⟨c, hc, rfl⟩ := Option.map_eq_some_iff.mp h
    exact ⟨rfl, mem_of_whole? hc⟩
  | onlyOneOf =>
    have hm := mem_of_whole? h
    obtain ⟨role, fields, rfl⟩ : ∃ role fields, s = .onlyOneOf role fields := yields_onlyOneOf _ _ hm
    exact ⟨rfl, hm⟩
  | eachOf =>
    have hm := mem_of_whole? h
    obtain ⟨_, _, rfl⟩ : ∃ text trailer, s = .eachOf (Enumeration.mentions g.roles text) trailer :=
      yields_eachOf _ _ hm
    exact ⟨rfl, hm⟩
  | roleDefinition =>
    obtain ⟨d, hd, rfl⟩ := Option.map_eq_some_iff.mp h
    exact ⟨rfl, mem_of_whole? hd⟩

/-- A line is parsed as the sentence that the full pattern of its form makes of it. -/
lemma readAs?_of_parse? {s : Sentence} (h : g.parse? line = some s) : g.readAs? line s.form = some s := by
  rw [parse?_eq] at h
  split at h
  · obtain ⟨c, hc, rfl⟩ := Option.map_eq_some_iff.mp h
    exact h
  · split at h
    · obtain ⟨role, fields, rfl⟩ := yields_onlyOneOf _ _ (mem_of_whole? h)
      exact h
    · rcases Option.or_eq_some_iff.mp h with h | ⟨_, h⟩
      · obtain ⟨text, trailer, rfl⟩ := yields_eachOf _ _ (mem_of_whole? h)
        exact h
      · obtain ⟨d, hd, rfl⟩ := Option.map_eq_some_iff.mp h
        exact h

lemma leads_of_readAs? {form : SentenceForm} (h : (g.readAs? line form).isSome = true) : g.Leads line form := by
  obtain ⟨s, hs⟩ := Option.isSome_iff_exists.mp h
  obtain ⟨rfl, hr⟩ := reads_of_readAs? hs
  cases s with
  | constraint c => exact ne_nil_of_bind hr
  | onlyOneOf role fields => exact ne_nil_of_bind hr
  | eachOf roles trailer => exact List.ne_nil_of_mem hr
  | roleDefinition d => exact List.ne_nil_of_mem hr

/-- A line that no form is led to is no sentence. -/
lemma exists_leads_of_parse? {s : Sentence} (h : g.parse? line = some s) : ∃ form, g.Leads line form := by
  rw [parse?_eq] at h
  split at h
  · next hc => exact ⟨.constraint, hc⟩
  · split at h
    · next ho => exact ⟨.onlyOneOf, ho⟩
    · rcases Option.or_eq_some_iff.mp h with h | ⟨_, h⟩
      · have hread : g.readAs? line .eachOf = some s := h
        exact ⟨.eachOf, leads_of_readAs? (Option.isSome_of_eq_some hread)⟩
      · have hread : g.readAs? line .roleDefinition = some s := h
        exact ⟨.roleDefinition, leads_of_readAs? (Option.isSome_of_eq_some hread)⟩

/-- What a sentence about several roles starts with is no subject. -/
lemma subject_eq_nil_of_eachOf (h : g.eachOf line ≠ []) : g.subject line = [] := by
  rw [List.eq_nil_iff_forall_not_mem]
  intro subject hs
  obtain ⟨article, harticle, -⟩ := mem_bind.mp hs
  obtain ⟨way, hw⟩ := List.exists_mem_of_ne_nil _ h
  obtain ⟨words, hwords, -⟩ := mem_bind.mp hw
  obtain ⟨each, heach, -⟩ := mem_bind.mp hwords
  have he := (mem_literal harticle).symm.trans (mem_literal heach)
  simp at he

lemma bind_eq_nil {α β : Type} {r : Reader α} {f : α → Reader β} {text : List Char} (h : r text = []) :
    (r >>= f) text = [] := by
  change (r text).flatMap _ = []
  rw [h, List.flatMap_nil]

section

variable (hq : ∀ name ∈ g.roles, '"' ∉ chars name) (hg : ∀ name ∈ g.roles, Verbless (chars name))

include hq hg

lemma firstQuote_verbless : FirstQuote Verbless g.roleDefinition := by
  rw [roleDefinition_eq]
  exact FirstQuote.bind_right ((avoids_subject hq).and (introduces_subject hg)) (fun _ h => h.1)
    firstQuote_definition fun _ _ hs hu => hs.2.verbless_append (Verbless.of_not_mem hu)

/-- In a definition of a role no modal verb stands before the first quote. -/
lemma not_verb_of_roleDefinition (h : g.roleDefinition line ≠ []) {taken rest : List Char}
    (ht : line = taken ++ rest) (hqt : '"' ∉ taken) {verb : String} (hv : verb ∈ ["MUST", "MAY"]) :
    ¬chars verb <+: rest := by
  intro hp
  obtain ⟨u, v, hu, -, hverbless⟩ := firstQuote_verbless hq hg line h
  obtain ⟨more, rfl⟩ := exists_before_quote hv hp hqt (hu.symm.trans ht)
  exact hverbless verb hv ⟨taken, more, List.append_assoc _ _ _⟩

omit hq in
lemma onlyOneStart_eq_nil_of_constraintStart (h : g.constraintStart line ≠ []) : g.onlyOneStart line = [] := by
  by_contra hne
  obtain ⟨u, rest, hu, hiu, role, excluded, hmodal⟩ := exists_modalPhrase hg h
  obtain ⟨v, behind, hv, hiv, honly⟩ := exists_onlyOneWords hg hne
  obtain ⟨verb, hm, hp⟩ := exists_verb_of_modalPhrase hmodal
  have hp' : chars "MUST" <+: behind := by
    obtain ⟨way, hw⟩ := List.exists_mem_of_ne_nil _ honly
    obtain ⟨must, hmust, -⟩ := mem_bind.mp hw
    rw [mem_literal hmust]
    exact List.prefix_append _ _
  have he : rest = behind := hiu.unique hm (by simp) hiv hp hp' (hu.symm.trans hv)
  rw [he] at hmodal
  exact hmodal (modalPhrase_eq_nil_of_onlyOneWords honly role excluded)

/-- Nothing leads to two forms. -/
lemma leads_unique {form other : SentenceForm} (h : g.Leads line form) (ho : g.Leads line other) :
    form = other := by
  have honly (hc : g.constraintStart line ≠ []) : g.onlyOneStart line = [] :=
    onlyOneStart_eq_nil_of_constraintStart hg hc
  have hdefinition (hd : g.roleDefinition line ≠ []) : g.constraintStart line = [] ∧ g.onlyOneStart line = [] := by
    constructor
    · exact constraintStart_eq_nil hq fun taken rest ht hqt role excluded => modalPhrase_eq_nil
        (fun verb hv => not_verb_of_roleDefinition hq hg hd ht hqt hv) role excluded
    · exact onlyOneStart_eq_nil hq fun taken rest ht hqt => not_verb_of_roleDefinition hq hg hd ht hqt (by simp)
  have heach (he : g.eachOf line ≠ []) : g.constraintStart line = [] ∧ g.onlyOneStart line = [] ∧
      g.roleDefinition line = [] := by
    have hs := subject_eq_nil_of_eachOf he
    exact ⟨bind_eq_nil hs, bind_eq_nil hs, bind_eq_nil hs⟩
  cases form with
  | constraint =>
    cases other with
    | constraint => rfl
    | onlyOneOf => exact absurd (honly h) ho
    | eachOf => exact absurd (heach ho).1 h
    | roleDefinition => exact absurd (hdefinition ho).1 h
  | onlyOneOf =>
    cases other with
    | constraint => exact absurd (honly ho) h
    | onlyOneOf => rfl
    | eachOf => exact absurd (heach ho).2.1 h
    | roleDefinition => exact absurd (hdefinition ho).2 h
  | eachOf =>
    cases other with
    | constraint => exact absurd (heach h).1 ho
    | onlyOneOf => exact absurd (heach h).2.1 ho
    | eachOf => rfl
    | roleDefinition => exact absurd (heach h).2.2 ho
  | roleDefinition =>
    cases other with
    | constraint => exact absurd (hdefinition h).1 ho
    | onlyOneOf => exact absurd (hdefinition h).2 ho
    | eachOf => exact absurd (heach ho).2.2 h
    | roleDefinition => rfl

/-- A line that can only be of a form is the sentence that the full pattern of the form makes of it. -/
lemma parse?_of_leads {form : SentenceForm} (h : g.Leads line form) : g.parse? line = g.readAs? line form := by
  have hnot {other : SentenceForm} (hne : other ≠ form) : ¬g.Leads line other :=
    fun ho => hne (leads_unique hq hg ho h)
  have hnone {other : SentenceForm} (hne : other ≠ form) : g.readAs? line other = none := by
    rw [← Option.not_isSome_iff_eq_none]
    exact fun hs => hnot hne (leads_of_readAs? hs)
  have hconstraint (hne : .constraint ≠ form) : ¬g.constraintStart line ≠ [] := hnot hne
  have honly (hne : .onlyOneOf ≠ form) : ¬g.onlyOneStart line ≠ [] := hnot hne
  have heach (hne : .eachOf ≠ form) : whole? g.eachOf line = none := hnone hne
  have hdefinition (hne : .roleDefinition ≠ form) :
      (whole? g.roleDefinition line).map Sentence.roleDefinition = none := hnone hne
  rw [parse?_eq]
  cases form with
  | constraint => exact if_pos h
  | onlyOneOf =>
    have hstart : g.onlyOneStart line ≠ [] := h
    rw [if_neg (hconstraint (by decide)), if_pos hstart, readAs?]
  | eachOf =>
    rw [if_neg (hconstraint (by decide)), if_neg (honly (by decide)),
      hdefinition (by decide), Option.or_none, readAs?]
  | roleDefinition =>
    rw [if_neg (hconstraint (by decide)), if_neg (honly (by decide)),
      heach (by decide), Option.none_or, readAs?]

end

/-- A line has the full pattern of one form at most, and it is read as a sentence exactly when it has the full
pattern of some form; the sentence is then of this form. -/
theorem parse?_by_form {roles : List String}
    (hroles : ∀ role ∈ roles, '"' ∉ chars role ∧ Verbless (chars role)) (line : List Char) :
    (∀ form other, ((ofRoles roles).readAs? line form).isSome → ((ofRoles roles).readAs? line other).isSome →
      form = other) ∧
    (((ofRoles roles).parse? line).isSome ↔ ∃ form, ((ofRoles roles).readAs? line form).isSome) ∧
    ∀ s, (ofRoles roles).parse? line = some s → (ofRoles roles).readAs? line s.form = some s := by
  have hq : ∀ name ∈ (ofRoles roles).roles, '"' ∉ chars name := fun name hn => (hroles name (mem_ofRoles.mp hn)).1
  have hg : ∀ name ∈ (ofRoles roles).roles, Verbless (chars name) :=
    fun name hn => (hroles name (mem_ofRoles.mp hn)).2
  have hread {s : Sentence} (hs : (ofRoles roles).parse? line = some s) :
      (ofRoles roles).readAs? line s.form = some s := by
    obtain ⟨form, hl⟩ := exists_leads_of_parse? hs
    rw [parse?_of_leads hq hg hl] at hs
    obtain ⟨rfl, -⟩ := reads_of_readAs? hs
    exact hs
  refine ⟨?_, ⟨?_, ?_⟩, fun s => hread⟩
  · intro form other hf ho
    exact leads_unique hq hg (leads_of_readAs? hf) (leads_of_readAs? ho)
  · intro hsome
    obtain ⟨s, hs⟩ := Option.isSome_iff_exists.mp hsome
    exact ⟨s.form, Option.isSome_of_eq_some (hread hs)⟩
  · rintro ⟨form, hf⟩
    rwa [parse?_of_leads hq hg (leads_of_readAs? hf)]

/-- A verb between quotes leads to no other form. -/
theorem mustState_by_form :
    let roles := ["State", "Wait State"]
    let line := chars "A State whose \"Type\" field's value is \"MUST\" is a \"Wait State\"."
    let s := Sentence.roleDefinition ⟨"State", .fieldValue "Type" "\"MUST\"", "Wait State"⟩
    (∀ role ∈ roles, '"' ∉ chars role ∧ Verbless (chars role)) ∧ (ofRoles roles).parse? line = some s ∧
      (ofRoles roles).readAs? line .roleDefinition = some s ∧
        ∀ form, ((ofRoles roles).readAs? line form).isSome → form = .roleDefinition := by
  intro roles line s
  have hroles : ∀ role ∈ roles, '"' ∉ chars role ∧ Verbless (chars role) := by decide
  have hparse : (ofRoles roles).parse? line = some s := by decide +kernel
  have hread := (parse?_by_form hroles line).2.2 s hparse
  refine ⟨hroles, hparse, hread, fun form hf => ?_⟩
  exact (parse?_by_form hroles line).1 form .roleDefinition hf (Option.isSome_of_eq_some hread)

end Grammar

end ProseSchema
