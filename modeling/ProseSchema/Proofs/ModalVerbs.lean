import ProseSchema.Proofs.FirstQuote

/-!
# Modal verbs

A subject and what it leaves out have no modal verb and end in white space, so that the first modal verb of a
line has one place only. The words that start a choice of fields there are none that a constraint has.
-/

namespace ProseSchema

open Reader

/-! Texts without modal verbs. -/

/-- Neither modal verb stands in the text. -/
def Verbless (text : List Char) : Prop :=
  ∀ verb ∈ ["MUST", "MAY"], ¬chars verb <:+: text

/-- What may stand behind a role: a text without modal verbs that does not start amid a word. -/
structure Parted (text : List Char) : Prop where
  verbless : Verbless text
  apart : ∀ c ∈ text.head?, isSpace c = true ∨ c = ','

/-- What stands before a modal verb: a text without one that ends in white space. -/
structure Introduces (text : List Char) : Prop where
  verbless : Verbless text
  blank : ∃ front c, text = front ++ [c] ∧ isSpace c = true

instance (text : List Char) : Decidable (Verbless text) :=
  inferInstanceAs (Decidable (∀ verb ∈ ["MUST", "MAY"], _))

lemma not_mem_verb_of_apart {verb : String} (hv : verb ∈ ["MUST", "MAY"]) {c : Char}
    (hc : isSpace c = true ∨ c = ',') : c ∉ chars verb := by
  intro hm
  have hletters : ∀ c ∈ chars verb, isSpace c = false ∧ c ≠ ',' := by
    rcases List.mem_pair.mp hv with rfl | rfl <;> simp
  obtain ⟨hs, hne⟩ := hletters c hm
  rcases hc with hc | rfl
  · rw [hs] at hc
    exact absurd hc (by decide)
  · exact hne rfl

namespace Verbless

variable {u v : List Char}

/-- Both modal verbs start with the same letter. -/
lemma append_left (hu : 'M' ∉ u) (hv : Verbless v) : Verbless (u ++ v) := by
  intro verb hm
  induction u with
  | nil => exact hv verb hm
  | cons c u ih =>
    rw [List.mem_cons, not_or] at hu
    intro h
    rcases List.infix_cons_iff.mp h with h | h
    · obtain ⟨more, hmore⟩ : ∃ more, chars verb = 'M' :: more := by
        rcases List.mem_pair.mp hm with rfl | rfl <;> simp
      rw [hmore] at h
      exact hu.1 (List.cons_prefix_cons.mp h).1
    · exact ih hu.2 h

lemma nil : Verbless [] := by
  intro verb hm
  rcases List.mem_pair.mp hm with rfl | rfl <;> simp

lemma of_not_mem (hu : 'M' ∉ u) : Verbless u := by
  have h := append_left hu nil
  rwa [List.append_nil] at h

/-- Text that stands apart makes no verb together with what it stands behind. -/
lemma append (hu : Verbless u) (hv : Parted v) : Verbless (u ++ v) := by
  cases v with
  | nil => rwa [List.append_nil]
  | cons c v =>
    intro verb hm h
    rcases infix_append_cons (not_mem_verb_of_apart hm (hv.apart c rfl)) h with h | h
    · exact hu verb hm h
    · exact hv.verbless verb hm (h.trans (List.suffix_cons c v).isInfix)

end Verbless

lemma not_mem_of_blank {gap : List Char} (h : ∀ d ∈ gap, isSpace d = true) : 'M' ∉ gap :=
  fun hm => absurd (h 'M' hm) (by simp)

namespace Parted

variable {u v : List Char}

lemma behind_blank (hne : u ≠ []) (hu : ∀ d ∈ u, isSpace d = true) (hv : Verbless v) : Parted (u ++ v) := by
  refine ⟨Verbless.append_left (not_mem_of_blank hu) hv, ?_⟩
  obtain ⟨c, u, rfl⟩ := List.exists_cons_of_ne_nil hne
  rintro _ ⟨⟩
  exact .inl (hu c List.mem_cons_self)

lemma behind_comma (hv : Verbless v) : Parted (',' :: v) :=
  ⟨Verbless.append_left (u := [',']) (by decide) hv, by simp⟩

end Parted

instance : Joins Parted where
  nil := ⟨Verbless.nil, by simp⟩
  append {u v} hu hv := by
    refine ⟨hu.verbless.append hv, ?_⟩
    cases u with
    | nil => exact hv.apart
    | cons c u => exact hu.apart

namespace Introduces

variable {u v : List Char}

lemma append_left (hu : 'M' ∉ u) (hv : Introduces v) : Introduces (u ++ v) := by
  obtain ⟨front, c, rfl, hc⟩ := hv.blank
  exact ⟨hv.verbless.append_left hu, u ++ front, c, by simp, hc⟩

lemma of_gap (hu : Verbless u) (hne : v ≠ []) (hv : ∀ d ∈ v, isSpace d = true) : Introduces (u ++ v) := by
  have hp : Parted v := by
    have h := Parted.behind_blank hne hv Verbless.nil
    rwa [List.append_nil] at h
  refine ⟨hu.append hp, u ++ v.dropLast, v.getLast hne, ?_, hv _ (List.getLast_mem hne)⟩
  rw [List.append_assoc, List.dropLast_append_getLast hne]

lemma verbless_append (hu : Introduces u) (hv : Verbless v) : Verbless (u ++ v) := by
  obtain ⟨front, c, rfl, hc⟩ := hu.blank
  intro verb hm h
  rw [List.append_assoc, List.singleton_append] at h
  rcases infix_append_cons (not_mem_verb_of_apart hm (.inl hc)) h with h | h
  · exact hu.verbless verb hm (h.trans (List.prefix_append front [c]).isInfix)
  · exact hv verb hm h

lemma append (hu : Introduces u) (hv : Introduces v) : Introduces (u ++ v) := by
  refine ⟨hu.verbless_append hv.verbless, ?_⟩
  obtain ⟨front, c, rfl, hc⟩ := hv.blank
  exact ⟨u ++ front, c, by simp, hc⟩

/-- Before the verb the text cannot go on up to white space. -/
lemma eq_nil_of_verb {verb : String} (hm : verb ∈ ["MUST", "MAY"]) {rest : List Char}
    (h : Introduces (u ++ v)) (hp : chars verb <+: v ++ rest) : v = [] := by
  by_contra hne
  rcases List.prefix_or_prefix_of_prefix hp (List.prefix_append v rest) with hp | hp
  · exact h.verbless verb hm (hp.isInfix.trans (List.suffix_append u v).isInfix)
  · obtain ⟨front, c, he, hc⟩ := h.blank
    have hl : v.getLast? = some c := by
      rw [← List.getLast?_append_of_ne_nil u hne, he]
      exact List.getLast?_concat
    exact not_mem_verb_of_apart hm (.inl hc) (hp.subset (List.mem_of_getLast? hl))

/-- In a text the first modal verb has one place only. -/
lemma unique {verb other : String} (hm : verb ∈ ["MUST", "MAY"]) (ho : other ∈ ["MUST", "MAY"])
    {rest behind : List Char} (hu : Introduces u) (hv : Introduces v) (hp : chars verb <+: rest)
    (hp' : chars other <+: behind) (h : u ++ rest = v ++ behind) : rest = behind := by
  rcases List.append_eq_append_iff.mp h with ⟨t, rfl, rfl⟩ | ⟨t, rfl, rfl⟩
  · rw [hv.eq_nil_of_verb hm hp, List.nil_append]
  · rw [hu.eq_nil_of_verb ho hp', List.nil_append]

end Introduces

namespace Reader

variable {α β : Type}

lemma verbless_after {r : Reader α} {f : α → Reader β} (hr : Avoids 'M' r) (hf : ∀ a, Takes Verbless (f a)) :
    Takes Verbless (r >>= f) :=
  hr.join hf fun _ _ => Verbless.append_left

lemma introduces_after {r : Reader α} {f : α → Reader β} (hr : Avoids 'M' r) (hf : ∀ a, Takes Introduces (f a)) :
    Takes Introduces (r >>= f) :=
  hr.join hf fun _ _ => Introduces.append_left

lemma introduces_gap {r : Reader α} (hr : Takes Verbless r) (f : α → β) :
    Takes Introduces (r >>= fun a => blanks >>= fun _ => pure (f a)) :=
  hr.join (fun _ => takes_gap.bind_pure _) fun _ _ hu hv => Introduces.of_gap hu hv.1 hv.2

end Reader

namespace Grammar

variable {g : Grammar}

/-! What stands before the modal verb. -/

section

variable (hg : ∀ name ∈ g.roles, Verbless (chars name))

include hg

lemma takes_roleList {connector : String} (hc : 'M' ∉ chars connector) : Takes Verbless (g.roleList connector) := by
  have hb : Avoids 'M' blanks := Avoids.blanks (by simp)
  have hitem : Takes Verbless (Enumeration.item true (Enumeration.oneOf g.roles)) :=
    verbless_after (Avoids.article (by decide) (by simp)) fun _ => takes_oneOf hg Verbless.nil
  have hcommaItem : Takes Parted (Enumeration.commaItem (Enumeration.item true (Enumeration.oneOf g.roles))) := by
    refine (Takes.literal (q := (· = [','])) rfl).join (fun _ => verbless_after hb fun _ => hitem) ?_
    rintro _ v rfl hv
    exact Parted.behind_comma hv
  have hmiddle : Takes Parted (Enumeration.middle (Enumeration.item true (Enumeration.oneOf g.roles))) :=
    hcommaItem.many1.bind fun _ => (Takes.literal (Parted.behind_comma Verbless.nil)).bind fun _ => Takes.pure _
  have htail : Takes Parted (Enumeration.tail connector (Enumeration.item true (Enumeration.oneOf g.roles))) :=
    hmiddle.optional.bind fun _ => takes_gap.join
      (fun _ => verbless_after (Takes.literal hc) fun _ => verbless_after hb fun _ => hitem.bind_pure _)
      fun _ _ hu hv => Parted.behind_blank hu.1 hu.2 hv
  have hlist : Takes Verbless (Enumeration.list connector (Enumeration.item true (Enumeration.oneOf g.roles))) :=
    hitem.join (fun _ => htail.optional.bind fun _ => Takes.pure _) fun _ _ => Verbless.append
  exact hlist.withText.map _

lemma introduces_subject : Takes Introduces g.subject := by
  have hb : Avoids 'M' blanks := Avoids.blanks (by simp)
  have hrole : Takes Introduces (Enumeration.oneOf g.roles >>= fun role => blanks >>= fun _ => pure role) :=
    introduces_gap (takes_oneOf hg Verbless.nil) _
  exact introduces_after (Takes.literal (by decide)) fun _ =>
    introduces_after (Takes.literal (by decide)).optional fun _ => introduces_after hb fun _ => hrole

lemma introduces_exclusion : Takes Introduces g.exclusion := by
  have hb : Avoids 'M' blanks := Avoids.blanks (by simp)
  have hwords : Avoids 'M' (phrase ["which", "is", "not"]) := Avoids.phrase (by decide) (by simp)
  exact introduces_after hwords fun _ => introduces_after hb fun _ =>
    introduces_gap (takes_roleList hg (by decide)) _

/-- A text that starts as a constraint has its modal phrase behind such a text. -/
lemma exists_modalPhrase {text : List Char} (h : g.constraintStart text ≠ []) :
    ∃ u rest, text = u ++ rest ∧ Introduces u ∧ ∃ role excluded, modalPhrase role excluded rest ≠ [] := by
  obtain ⟨way, hw⟩ := List.exists_mem_of_ne_nil _ h
  rw [constraintStart_eq] at hw
  obtain ⟨first, hfirst, hw⟩ := mem_bind.mp hw
  obtain ⟨second, hsecond, hw⟩ := mem_bind.mp hw
  obtain ⟨u, hu, hiu⟩ := introduces_subject hg text first hfirst
  have hphrase : ∃ role excluded, modalPhrase role excluded second.2 ≠ [] := ⟨_, _, List.ne_nil_of_mem hw⟩
  rcases List.mem_append.mp hsecond with hsome | hnone
  · obtain ⟨taken, htaken, hs⟩ := mem_bind.mp hsome
    obtain rfl := List.mem_singleton.mp hs
    obtain ⟨v, hv, hiv⟩ := introduces_exclusion hg first.2 taken htaken
    exact ⟨u ++ v, taken.2, by rw [hu, hv, List.append_assoc], hiu.append hiv, hphrase⟩
  · obtain rfl := List.mem_singleton.mp hnone
    exact ⟨u, first.2, hu, hiu, hphrase⟩

lemma exists_onlyOneWords {text : List Char} (h : g.onlyOneStart text ≠ []) :
    ∃ u rest, text = u ++ rest ∧ Introduces u ∧ phrase ["MUST", "have", "only"] rest ≠ [] := by
  obtain ⟨way, hw⟩ := List.exists_mem_of_ne_nil _ h
  obtain ⟨first, hfirst, hw⟩ := mem_bind.mp hw
  obtain ⟨second, hsecond, -⟩ := mem_bind.mp hw
  obtain ⟨u, hu, hiu⟩ := introduces_subject hg text first hfirst
  exact ⟨u, first.2, hu, hiu, List.ne_nil_of_mem hsecond⟩

end

/-! The words behind the modal verb. -/

lemma exists_verb_of_modalPhrase {role : String} {excluded : List String} {text : List Char}
    (h : modalPhrase role excluded text ≠ []) : ∃ verb ∈ ["MUST", "MAY"], chars verb <+: text := by
  by_contra hno
  simp only [not_exists, not_and] at hno
  exact h (modalPhrase_eq_nil hno role excluded)

lemma eq_of_gaps {gap gap' u v : List Char} (hg : ∀ d ∈ gap, isSpace d = true)
    (hg' : ∀ d ∈ gap', isSpace d = true) (hu : Solid u) (hv : Solid v) (h : gap ++ u = gap' ++ v) : u = v := by
  have hdrop {text : List Char} (ht : Solid text) : text.dropWhile isSpace = text := by
    cases text with
    | nil => rfl
    | cons c text => exact List.dropWhile_cons_of_neg (by simp [ht c rfl])
  have hd := congrArg (List.dropWhile isSpace) h
  rwa [List.dropWhile_append_of_pos hg, List.dropWhile_append_of_pos hg', hdrop hu, hdrop hv] at hd

lemma exists_of_onlyOneWords {text : List Char} (h : phrase ["MUST", "have", "only"] text ≠ []) :
    ∃ gap gap' rest, (∀ d ∈ gap, isSpace d = true) ∧ (∀ d ∈ gap', isSpace d = true) ∧
      text = chars "MUST" ++ (gap ++ (chars "have" ++ (gap' ++ (chars "only" ++ rest)))) := by
  obtain ⟨way, hw⟩ := List.exists_mem_of_ne_nil _ h
  obtain ⟨must, hmust, hw⟩ := mem_bind.mp hw
  obtain ⟨_, hgap, hw⟩ := mem_bind.mp hw
  obtain ⟨verb, hverb, hw⟩ := mem_bind.mp hw
  obtain ⟨_, hgap', honly⟩ := mem_bind.mp hw
  obtain ⟨gap, ht, hs⟩ := takes_blanks _ _ hgap
  obtain ⟨gap', ht', hs'⟩ := takes_blanks _ _ hgap'
  refine ⟨gap, gap', way.2, hs, hs', ?_⟩
  rw [← mem_literal honly, ← ht', ← mem_literal hverb, ← ht]
  exact mem_literal hmust

lemma exists_of_modal {text : List Char} {way : Modal × List Char} (h : way ∈ modal text) :
    ∃ words ∈ ["MUST NOT", "MUST", "MAY"], text = chars words ++ way.2 := by
  have hkeyword {words : String} {a : Modal} (hk : way ∈ keyword words a text) : text = chars words ++ way.2 := by
    obtain ⟨read, hread, hp⟩ := mem_bind.mp hk
    obtain rfl := List.mem_singleton.mp hp
    exact mem_literal hread
  rcases List.mem_append.mp h with h | h
  · exact ⟨_, by simp, hkeyword h⟩
  rcases List.mem_append.mp h with h | h
  · exact ⟨_, by simp, hkeyword h⟩
  rcases List.mem_append.mp h with h | h
  · exact ⟨_, by simp, hkeyword h⟩
  · exact absurd h List.not_mem_nil

lemma exists_of_modalPhrase {role : String} {excluded : List String} {text : List Char}
    (h : modalPhrase role excluded text ≠ []) :
    ∃ words ∈ ["MUST NOT", "MUST", "MAY"], ∃ gap gap' rest, (∀ d ∈ gap, isSpace d = true) ∧
      (∀ d ∈ gap', isSpace d = true) ∧
        text = chars words ++ (gap ++ (chars "have" ++ (gap' ++ 'a' :: rest))) := by
  obtain ⟨way, hw⟩ := List.exists_mem_of_ne_nil _ h
  obtain ⟨modal, hmodal, hw⟩ := mem_bind.mp hw
  obtain ⟨_, hgap, hw⟩ := mem_bind.mp hw
  obtain ⟨verb, hverb, hw⟩ := mem_bind.mp hw
  obtain ⟨_, hgap', hw⟩ := mem_bind.mp hw
  obtain ⟨_, harticle, -⟩ := mem_bind.mp hw
  obtain ⟨letter, hletter, -⟩ := mem_bind.mp harticle
  obtain ⟨words, hm, htext⟩ := exists_of_modal hmodal
  obtain ⟨gap, ht, hs⟩ := takes_blanks _ _ hgap
  obtain ⟨gap', ht', hs'⟩ := takes_blanks _ _ hgap'
  refine ⟨words, hm, gap, gap', letter.2, hs, hs', ?_⟩
  have ha : _ = 'a' :: letter.2 := mem_literal hletter
  rw [← ha, ← ht', ← mem_literal hverb, ← ht]
  exact htext

/-- The words of a choice of fields are none that a constraint has. -/
lemma modalPhrase_eq_nil_of_onlyOneWords {text : List Char} (h : phrase ["MUST", "have", "only"] text ≠ [])
    (role : String) (excluded : List String) : modalPhrase role excluded text = [] := by
  by_contra hne
  obtain ⟨gap, gap', rest, hs, hs', ht⟩ := exists_of_onlyOneWords h
  obtain ⟨words, hm, before, before', behind, hb, hb', he⟩ := exists_of_modalPhrase hne
  rw [ht] at he
  simp only [List.mem_cons, List.not_mem_nil, or_false] at hm
  rcases hm with rfl | rfl | rfl
  · -- White space alone stands between `MUST` and `have`.
    have hnot : gap ++ (chars "have" ++ (gap' ++ (chars "only" ++ rest))) =
        [' '] ++ (chars "NOT" ++ (before ++ (chars "have" ++ (before' ++ 'a' :: behind)))) := by
      simpa using he
    have hword := eq_of_gaps hs (by simp) (by simp) (by simp) hnot
    simp at hword
  · have hhave := eq_of_gaps hs hb (by simp) (by simp) (List.append_cancel_left he)
    have honly := eq_of_gaps hs' hb' (by simp) (by simp) (List.append_cancel_left hhave)
    simp at honly
  · simp at he

end Grammar

end ProseSchema
