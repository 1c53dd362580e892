import ProseSchema.Proofs.SpokenLines
import ProseSchema.Proofs.TrailingBlanks

/-!
# Lines without quotes

A sentence about several roles names some, and every other sentence has a quote. So a line without a quote is
refused, for none of the lines that it can stand for is a sentence.
-/

namespace ProseSchema

open Reader

namespace Reader

lemma mem_run_append {p : Char → Bool} {gap : List Char} (h : ∀ c ∈ gap, p c = true) (rest : List Char) :
    (gap, rest) ∈ run p (gap ++ rest) := by
  induction gap with
  | nil =>
    cases rest with
    | nil => exact List.mem_singleton_self _
    | cons c rest =>
      rw [List.nil_append, run]
      split <;> simp
  | cons c gap ih =>
    rw [List.forall_mem_cons] at h
    rw [List.cons_append, run, if_pos h.1]
    exact List.mem_append_left _ (List.mem_map.mpr ⟨(gap, rest), ih h.2, rfl⟩)

lemma mem_blanks_append {gap : List Char} (hne : gap ≠ []) (h : ∀ c ∈ gap, isSpace c = true) (rest : List Char) :
    ((), rest) ∈ blanks (gap ++ rest) := by
  obtain ⟨c, gap, rfl⟩ := List.exists_cons_of_ne_nil hne
  rw [List.forall_mem_cons] at h
  have hfirst : (c, gap ++ rest) ∈ char isSpace (c :: gap ++ rest) := by simp [char, h.1]
  have hrun : (c :: gap, rest) ∈ run1 isSpace (c :: gap ++ rest) :=
    mem_bind.mpr ⟨_, hfirst, mem_bind.mpr ⟨_, mem_run_append h.2 rest, List.mem_singleton_self _⟩⟩
  exact mem_bind.mpr ⟨_, hrun, List.mem_singleton_self _⟩

end Reader

namespace Enumeration

lemma mem_blanks {text : List Char} {way : Unit × List Char} (h : way ∈ blanks text) :
    ∃ gap, IsGap gap ∧ text = gap ++ way.2 := by
  obtain ⟨gap, ht, hg⟩ := takes_gap _ _ h
  exact ⟨gap, hg, ht⟩

lemma mem_article {text : List Char} {way : Unit × List Char} (h : way ∈ article text) :
    ∃ u, IsArticle u ∧ text = u ++ way.2 := by
  obtain ⟨first, hfirst, h⟩ := mem_bind.mp h
  obtain ⟨second, hsecond, h⟩ := mem_bind.mp h
  obtain ⟨gap, hg, hgap⟩ := mem_blanks h
  have ha := mem_literal hfirst
  rcases List.mem_append.mp hsecond with hn | hn
  · obtain ⟨third, hthird, hn⟩ := mem_bind.mp hn
    obtain rfl := List.mem_singleton.mp hn
    exact ⟨'a' :: 'n' :: gap, ⟨gap, hg, .inr rfl⟩, by rw [ha, mem_literal hthird, hgap]; rfl⟩
  · obtain rfl := List.mem_singleton.mp hn
    exact ⟨'a' :: gap, ⟨gap, hg, .inl rfl⟩, by rw [ha, hgap]; rfl⟩

/-- An article is one whatever stands behind it. -/
lemma IsArticle.mem {u : List Char} (hu : IsArticle u) (rest : List Char) : ((), rest) ∈ article (u ++ rest) := by
  obtain ⟨gap, ⟨hne, hs⟩, rfl | rfl⟩ := hu
  · have hn : (none, gap ++ rest) ∈ optional (literal ['n']) (gap ++ rest) :=
      List.mem_append_right _ (List.mem_singleton_self _)
    exact mem_bind.mpr ⟨_, mem_literal_append ['a'] _, mem_bind.mpr ⟨_, hn, mem_blanks_append hne hs rest⟩⟩
  · have hn : (some (), gap ++ rest) ∈ optional (literal ['n']) ('n' :: (gap ++ rest)) :=
      List.mem_append_left _ (mem_bind.mpr ⟨_, mem_literal_append ['n'] _, List.mem_singleton_self _⟩)
    exact mem_bind.mpr ⟨_, mem_literal_append ['a'] _, mem_bind.mpr ⟨_, hn, mem_blanks_append hne hs rest⟩⟩

lemma mem_item {names : List String} {text : List Char} {way : String × List Char}
    (h : way ∈ item true (oneOf names) text) :
    way.1 ∈ candidates names ∧ ∃ u, IsArticle u ∧ text = u ++ (chars way.1 ++ way.2) := by
  obtain ⟨first, hfirst, h⟩ := mem_bind.mp h
  obtain ⟨u, hu, ht⟩ := mem_article hfirst
  obtain ⟨r, hr, h⟩ := mem_firstOf.mp h
  obtain ⟨name, hname, rfl⟩ := List.mem_map.mp hr
  obtain ⟨read, hread, h⟩ := mem_bind.mp h
  obtain rfl := List.mem_singleton.mp h
  exact ⟨hname, u, hu, by rw [ht, mem_literal hread]⟩

/-- An item of a list is a mention whatever stands behind it. -/
lemma exists_mention {names : List String} {text : List Char} {way : String × List Char}
    (h : way ∈ item true (oneOf names) text) :
    ∃ taken, text = taken ++ way.2 ∧ ∀ rest, mention names (taken ++ rest) ≠ [] := by
  obtain ⟨hname, u, hu, ht⟩ := mem_item h
  refine ⟨u ++ chars way.1, by rw [ht, List.append_assoc], fun rest => ?_⟩
  have hone : (way.1, rest) ∈ oneOf names (chars way.1 ++ rest) :=
    mem_firstOf.mpr ⟨_, List.mem_map.mpr ⟨way.1, hname, rfl⟩,
      mem_bind.mpr ⟨_, mem_literal_append _ _, List.mem_singleton_self _⟩⟩
  have hcomma : (none, rest) ∈ optional (literal [','] >>= fun _ => blanks) rest :=
    List.mem_append_right _ (List.mem_singleton_self _)
  have hmention : (way.1, rest) ∈ mention names (u ++ (chars way.1 ++ rest)) :=
    mem_bind.mpr ⟨_, hu.mem _, mem_bind.mpr ⟨_, hone, mem_bind.mpr ⟨_, hcomma, List.mem_singleton_self _⟩⟩⟩
  rw [List.append_assoc]
  exact List.ne_nil_of_mem hmention

lemma mentions_ne_nil {names : List String} {text : List Char} (h : mention names text ≠ []) :
    mentions names text ≠ [] := by
  cases text with
  | nil => exact absurd rfl h
  | cons c text =>
    obtain ⟨way, ways, hw⟩ := List.exists_cons_of_ne_nil h
    rw [mentions, mentionsFrom, Option.any_none, if_neg (by decide), hw]
    exact List.cons_ne_nil _ _

end Enumeration

namespace Grammar

lemma mentions_roleList_ne_nil {g : Grammar} {connector : String} {text : List Char} {way : List Char × List Char}
    (h : way ∈ g.roleList connector text) : Enumeration.mentions g.roles way.1 ≠ [] := by
  obtain ⟨both, hboth, hw⟩ := mem_bind.mp h
  obtain rfl := List.mem_singleton.mp hw
  obtain ⟨listed, hlisted, rfl⟩ := List.mem_map.mp hboth
  obtain ⟨item, hitem, htail⟩ := mem_bind.mp hlisted
  obtain ⟨taken, ht, hmention⟩ := Enumeration.exists_mention hitem
  have hothers : LeavesGap (optional (Enumeration.tail connector (Enumeration.item true (Enumeration.oneOf g.roles)))
      >>= fun others => pure (item.1 :: others.getD [])) :=
    (LeavesGap.tail connector (LeavesGap.article.bind fun _ => .oneOf _)).optional.bind fun _ => .pure _
  obtain ⟨more, hmore⟩ := hothers.takes.suffix htail
  have hw : text = (taken ++ more) ++ listed.2 := by rw [ht, ← hmore, List.append_assoc]
  have htext : text.take (text.length - listed.2.length) = taken ++ more := by
    rw [hw, List.length_append, Nat.add_sub_cancel, List.take_left]
  rw [htext]
  exact Enumeration.mentions_ne_nil (hmention more)

lemma ne_nil_of_eachOf {g : Grammar} {line : List Char} {roles : List String} {trailer : String}
    (h : g.Reads line (.eachOf roles trailer)) : roles ≠ [] := by
  obtain ⟨first, -, h⟩ := mem_bind.mp h
  obtain ⟨second, -, h⟩ := mem_bind.mp h
  obtain ⟨listed, hlisted, h⟩ := mem_bind.mp h
  obtain ⟨fourth, -, h⟩ := mem_bind.mp h
  obtain ⟨last, -, h⟩ := mem_bind.mp h
  have he : roles = Enumeration.mentions g.roles listed.1 :=
    (Sentence.eachOf.inj (Prod.mk.inj (List.mem_singleton.mp h)).1).1
  rw [he]
  exact mentions_roleList_ne_nil hlisted

/-- Without a quote a line is a sentence about several roles or none. -/
lemma exists_eachOf_of_not_mem {g : Grammar} (hg : ∀ name ∈ g.roles, '"' ∉ chars name) {line : List Char}
    (h : '"' ∉ line) {s : Sentence} (hs : g.parse? line = some s) :
    ∃ roles trailer, s = .eachOf roles trailer := by
  have hquote {β : Type} {p : List Char → Prop} {r : Reader β} {way : β × List Char} (hr : FirstQuote p r)
      (hw : way ∈ r line) : '"' ∈ line := by
    obtain ⟨u, v, rfl, -⟩ := hr line (List.ne_nil_of_mem hw)
    simp
  have hr := reads_of_parse? hs
  cases s with
  | constraint c => exact absurd (hquote (firstQuote_constraint hg) hr) h
  | onlyOneOf role fields => exact absurd (hquote (firstQuote_onlyOneOf hg) hr) h
  | eachOf roles trailer => exact ⟨roles, trailer, rfl⟩
  | roleDefinition d => exact absurd (hquote (firstQuote_roleDefinition hg) hr) h

end Grammar

namespace Draft

variable {library : PatternLibrary} {draft : Draft}

section

variable (hd : draft.Quoteless) (n m : Nat)

include hd

lemma addLine_of_not_mem {line : List Char} (h : '"' ∉ line) :
    ∃ text, draft.addLine library n line = .error (.unrecognizedLine n text) := by
  unfold addLine
  cases hs : draft.grammar.parse? line with
  | none => exact ⟨_, rfl⟩
  | some s =>
    obtain ⟨roles, trailer, rfl⟩ := Grammar.exists_eachOf_of_not_mem hd.grammar h hs
    exact ⟨_, rfl⟩

/-- Without a quote a line is refused, also as a sentence about several roles. -/
lemma add_of_not_mem {line : List Char} (h : '"' ∉ line) :
    ∃ text, draft.add library n line = .error (.unrecognizedLine n text) := by
  unfold add
  cases hs : draft.grammar.parse? line with
  | none => exact ⟨_, rfl⟩
  | some s =>
    obtain ⟨roles, trailer, rfl⟩ := Grammar.exists_eachOf_of_not_mem hd.grammar h hs
    have hr := Grammar.reads_of_parse? hs
    obtain ⟨role, others, rfl⟩ := List.exists_cons_of_ne_nil (Grammar.ne_nil_of_eachOf hr)
    have hrole := Grammar.isQuoteless_of_eachOf hd.grammar hr role List.mem_cons_self
    have htrailer : '"' ∉ chars trailer := fun hm => h ((Grammar.trailer_suffix hd.grammar hr).subset hm)
    have hspoken : '"' ∉ spokenOf role trailer := by
      rw [IsQuoteless, chars_eq_toList] at hrole
      rw [chars_eq_toList] at htrailer
      simpa [spokenOf] using ⟨hrole, htrailer⟩
    obtain ⟨text, he⟩ := addLine_of_not_mem hd n hspoken
    refine ⟨text, ?_⟩
    change List.foldlM _ _ _ = _
    rw [List.foldlM_cons, he]
    rfl

end

end Draft

end ProseSchema
