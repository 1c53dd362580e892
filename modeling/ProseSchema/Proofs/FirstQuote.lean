import ProseSchema.Proofs.ReadingBack
import ProseSchema.Rules.Compile

/-!
# Before the first quote

The first quote of a root declaration stands behind `called a`, and that of a sentence never does. Main
statement: a line that says a trailer of a role is no root declaration, if it is a sentence and if no
declaration stands in the trailer.
-/

namespace ProseSchema

/-! The end of a text. -/

/-- The text ends in the character, but for white space. -/
def EndsIn (c : Char) (u : List Char) : Prop :=
  ∃ x gap, u = x ++ c :: gap ∧ ∀ d ∈ gap, isSpace d = true

/-- The text ends in the character and an article, but for white space. -/
def EndsBeforeArticle (c : Char) (u : List Char) : Prop :=
  ∃ x gap, (u = x ++ 'a' :: gap ∨ u = x ++ 'a' :: 'n' :: gap) ∧ (∀ d ∈ gap, isSpace d = true) ∧ EndsIn c x

lemma dropWhile_reverse {x gap : List Char} {c : Char} (hc : isSpace c = false)
    (hgap : ∀ d ∈ gap, isSpace d = true) :
    (x ++ c :: gap).reverse.dropWhile isSpace = c :: x.reverse := by
  have hr : ∀ d ∈ gap.reverse, isSpace d = true := fun d hd => hgap d (List.mem_reverse.mp hd)
  rw [List.reverse_append, List.reverse_cons, List.append_assoc, List.dropWhile_append_of_pos hr,
    List.singleton_append, List.dropWhile_cons_of_neg (by simp [hc])]

namespace EndsIn

variable {c d : Char} {u : List Char}

lemma unique (h : EndsIn c u) (h' : EndsIn d u) (hc : isSpace c = false) (hd : isSpace d = false) : c = d := by
  obtain ⟨x, gap, rfl, hgap⟩ := h
  obtain ⟨y, gap', he, hgap'⟩ := h'
  have hx := dropWhile_reverse (x := x) hc hgap
  rw [he, dropWhile_reverse hd hgap', List.cons.injEq] at hx
  exact hx.1.symm

lemma append_left (h : EndsIn c u) (t : List Char) : EndsIn c (t ++ u) := by
  obtain ⟨x, gap, rfl, hgap⟩ := h
  exact ⟨t ++ x, gap, (List.append_assoc _ _ _).symm, hgap⟩

lemma append_right (h : EndsIn c u) {gap : List Char} (hgap : ∀ d ∈ gap, isSpace d = true) :
    EndsIn c (u ++ gap) := by
  obtain ⟨x, gap', rfl, hgap'⟩ := h
  refine ⟨x, gap' ++ gap, by simp, ?_⟩
  rw [List.forall_mem_append]
  exact ⟨hgap', hgap⟩

end EndsIn

namespace EndsBeforeArticle

variable {c d : Char} {u : List Char}

lemma append_left (h : EndsBeforeArticle c u) (t : List Char) : EndsBeforeArticle c (t ++ u) := by
  obtain ⟨x, gap, he, hgap, hx⟩ := h
  refine ⟨t ++ x, gap, ?_, hgap, hx.append_left t⟩
  rcases he with rfl | rfl
  · exact .inl (List.append_assoc _ _ _).symm
  · exact .inr (List.append_assoc _ _ _).symm

/-- What is left of the reverse of the text. -/
lemma dropWhile_reverse (h : EndsBeforeArticle c u) :
    ∃ x, EndsIn c x ∧ (u.reverse.dropWhile isSpace = 'a' :: x.reverse ∨
      u.reverse.dropWhile isSpace = 'n' :: 'a' :: x.reverse) := by
  obtain ⟨x, gap, he, hgap, hx⟩ := h
  refine ⟨x, hx, ?_⟩
  rcases he with rfl | rfl
  · exact .inl (ProseSchema.dropWhile_reverse (by decide) hgap)
  · have hn := ProseSchema.dropWhile_reverse (x := x ++ ['a']) (c := 'n') (by decide) hgap
    exact .inr (by simpa using hn)

lemma unique (h : EndsBeforeArticle c u) (h' : EndsBeforeArticle d u) (hc : isSpace c = false)
    (hd : isSpace d = false) : c = d := by
  obtain ⟨x, hx, he⟩ := h.dropWhile_reverse
  obtain ⟨y, hy, he'⟩ := h'.dropWhile_reverse
  have hxy : x.reverse = y.reverse := by
    rcases he with he | he <;> rcases he' with he' | he' <;> rw [he] at he' <;> simp at he' <;> simp [he']
  rw [List.reverse_injective hxy] at hx
  exact hx.unique hy hc hd

lemma not_endsIn (h : EndsBeforeArticle c u) (hd : EndsIn d u) (hs : isSpace d = false) : d = 'a' ∨ d = 'n' := by
  obtain ⟨x, _, he⟩ := h.dropWhile_reverse
  obtain ⟨y, gap, rfl, hgap⟩ := hd
  rw [ProseSchema.dropWhile_reverse hs hgap] at he
  rcases he with he | he
  · exact .inl (List.cons.inj he).1
  · exact .inr (List.cons.inj he).1

end EndsBeforeArticle

/-- What stands before the first quote of a sentence: `named`, `of` or `whose`, or an article behind `with` or
`is`. -/
def OpensSentence (u : List Char) : Prop :=
  (∃ c ∈ ['d', 'e', 'f'], EndsIn c u) ∨ ∃ c ∈ ['h', 's'], EndsBeforeArticle c u

lemma OpensSentence.append_left {u : List Char} (h : OpensSentence u) (t : List Char) :
    OpensSentence (t ++ u) := by
  rcases h with ⟨c, hc, h⟩ | ⟨c, hc, h⟩
  · exact .inl ⟨c, hc, h.append_left t⟩
  · exact .inr ⟨c, hc, h.append_left t⟩

/-- What stands before the first quote of a declaration is none of these. -/
lemma not_opensSentence {u : List Char} (h : EndsBeforeArticle 'd' u) : ¬OpensSentence u := by
  rintro (⟨c, hc, he⟩ | ⟨c, hc, he⟩)
  · have hs : ∀ c ∈ ['d', 'e', 'f'], isSpace c = false ∧ c ≠ 'a' ∧ c ≠ 'n' := by simp [isSpace]
    obtain ⟨hs, ha, hn⟩ := hs c hc
    rcases h.not_endsIn he hs with rfl | rfl
    · exact ha rfl
    · exact hn rfl
  · have hs : ∀ c ∈ ['h', 's'], isSpace c = false ∧ 'd' ≠ c := by simp [isSpace]
    obtain ⟨hs, hd⟩ := hs c hc
    exact hd (h.unique he (by decide) hs)

namespace Reader

variable {α β : Type}

lemma takes_blanks : Takes (fun taken => ∀ d ∈ taken, isSpace d = true) blanks :=
  Takes.blanks fun _ h => List.forall_mem_singleton.mpr h

lemma takes_gap : Takes (fun u => u ≠ [] ∧ ∀ d ∈ u, isSpace d = true) blanks := by
  have hfirst : Takes (fun u => u ≠ []) (char isSpace) := Takes.char fun _ _ => List.cons_ne_nil _ _
  have hne : Takes (fun u => u ≠ []) blanks :=
    (hfirst.join (q := fun _ => True) (fun _ => (Takes.run fun _ _ => trivial).map _)
      fun _ _ hu _ => List.append_ne_nil_of_left_ne_nil hu _).map _
  exact hne.and takes_blanks

lemma not_mem_of_forall_isSpace {gap : List Char} (h : ∀ d ∈ gap, isSpace d = true) : '"' ∉ gap := by
  intro hq
  exact absurd (h '"' hq) (by decide)

lemma takes_phrase {words : List String} {last : String} (hl : words.getLast? = some last) {c : Char}
    (hc : (chars last).getLast? = some c) (hq : ∀ word ∈ words, '"' ∉ chars word) :
    Takes (fun taken => '"' ∉ taken ∧ EndsIn c taken) (phrase words) := by
  induction words with
  | nil => simp at hl
  | cons word words ih =>
    rw [List.forall_mem_cons] at hq
    cases words with
    | nil =>
      obtain rfl : word = last := by simpa using hl
      intro text way hw
      obtain ⟨x, hx⟩ := List.getLast?_eq_some_iff.mp hc
      exact ⟨chars word, mem_literal hw, hq.1, x, [], hx, List.forall_mem_nil _⟩
    | cons other words =>
      intro text way hw
      obtain ⟨first, hfirst, hw⟩ := mem_bind.mp hw
      obtain ⟨second, hsecond, hw⟩ := mem_bind.mp hw
      obtain ⟨gap, hgap, hs⟩ := takes_blanks _ _ hsecond
      obtain ⟨taken, ht, hqt, hct⟩ := ih (by simpa using hl) hq.2 _ _ hw
      refine ⟨chars word ++ (gap ++ taken), ?_, ?_, (hct.append_left gap).append_left (chars word)⟩
      · rw [mem_literal hfirst, hgap, ht]
        simp only [List.append_assoc]
      · simp only [List.mem_append, not_or]
        exact ⟨hq.1, not_mem_of_forall_isSpace hs, hqt⟩

lemma takes_article : Takes (fun taken => ∃ gap, (∀ d ∈ gap, isSpace d = true) ∧
    (taken = 'a' :: gap ∨ taken = 'a' :: 'n' :: gap)) Enumeration.article := by
  intro text way hw
  obtain ⟨first, hfirst, hw⟩ := mem_bind.mp hw
  obtain ⟨second, hsecond, hw⟩ := mem_bind.mp hw
  obtain ⟨gap, hgap, hs⟩ := takes_blanks _ _ hw
  have ha := mem_literal hfirst
  rcases List.mem_append.mp hsecond with hn | hn
  · obtain ⟨third, hthird, hn⟩ := mem_bind.mp hn
    obtain rfl := List.mem_singleton.mp hn
    exact ⟨'a' :: 'n' :: gap, by rw [ha, mem_literal hthird, hgap]; rfl, gap, hs, .inr rfl⟩
  · obtain rfl := List.mem_singleton.mp hn
    exact ⟨'a' :: gap, by rw [ha, hgap]; rfl, gap, hs, .inl rfl⟩

/-- Wherever the reader reads something, the text has a quote, and what stands before the first one is like
this. -/
def FirstQuote (p : List Char → Prop) (r : Reader α) : Prop :=
  ∀ text, r text ≠ [] → ∃ u v, text = u ++ '"' :: v ∧ '"' ∉ u ∧ p u

namespace FirstQuote

variable {p q : List Char → Prop}

lemma mono {r : Reader α} (h : FirstQuote p r) (hpq : ∀ u, p u → q u) : FirstQuote q r := by
  intro text hne
  obtain ⟨u, v, ht, hu, hp⟩ := h text hne
  exact ⟨u, v, ht, hu, hpq u hp⟩

lemma bind_left {r : Reader α} (h : FirstQuote p r) (f : α → Reader β) : FirstQuote p (r >>= f) := by
  intro text hne
  apply h text
  intro hnil
  apply hne
  change (r text).flatMap _ = []
  rw [hnil, List.flatMap_nil]

lemma bind_right {t : List Char → Prop} {r : Reader α} {f : α → Reader β} (hr : Takes t r)
    (hq : ∀ taken, t taken → '"' ∉ taken) (hf : ∀ a, FirstQuote p (f a))
    (hp : ∀ taken u, t taken → p u → q (taken ++ u)) : FirstQuote q (r >>= f) := by
  intro text hne
  obtain ⟨way, hw⟩ := List.exists_mem_of_ne_nil _ hne
  obtain ⟨first, hfirst, hw⟩ := mem_bind.mp hw
  obtain ⟨taken, ht, htaken⟩ := hr text first hfirst
  obtain ⟨u, v, hrest, hu, hpu⟩ := hf first.1 first.2 (List.ne_nil_of_mem hw)
  refine ⟨taken ++ u, v, ?_, ?_, hp taken u htaken hpu⟩
  · rw [ht, hrest, List.append_assoc]
  · rw [List.mem_append, not_or]
    exact ⟨hq taken htaken, hu⟩

lemma orElse {r s : Reader α} (hr : FirstQuote p r) (hs : FirstQuote p s) : FirstQuote p (Reader.orElse r s) := by
  intro text hne
  by_cases hnil : r text = []
  · apply hs text
    intro hs
    apply hne
    change r text ++ s text = []
    rw [hnil, hs, List.append_nil]
  · exact hr text hnil

lemma firstOf {rs : List (Reader α)} (h : ∀ r ∈ rs, FirstQuote p r) : FirstQuote p (Reader.firstOf rs) := by
  induction rs with
  | nil =>
    intro text hne
    exact absurd rfl hne
  | cons r rs ih =>
    rw [List.forall_mem_cons] at h
    exact h.1.orElse (ih h.2)

lemma optional_bind {r : Reader α} {f : Option α → Reader β} (hr : FirstQuote p r)
    (hf : FirstQuote p (f none)) : FirstQuote p (optional r >>= f) := by
  intro text hne
  obtain ⟨way, hw⟩ := List.exists_mem_of_ne_nil _ hne
  obtain ⟨first, hfirst, hw⟩ := mem_bind.mp hw
  rcases List.mem_append.mp hfirst with hsome | hnone
  · obtain ⟨taken, htaken, _⟩ := mem_bind.mp hsome
    exact hr text (List.ne_nil_of_mem htaken)
  · obtain rfl := List.mem_singleton.mp hnone
    exact hf text (List.ne_nil_of_mem hw)

lemma quotedNonempty : FirstQuote (· = []) Reader.quotedNonempty := by
  apply bind_left
  intro text hne
  obtain ⟨way, hw⟩ := List.exists_mem_of_ne_nil _ hne
  exact ⟨[], way.2, mem_literal hw, List.not_mem_nil, rfl⟩

lemma quotedList (connector : String) {particle : Reader (List Char)} (h : FirstQuote p particle) :
    FirstQuote p (Grammar.quotedList connector particle) := by
  apply bind_left
  intro text hne
  apply h.bind_left _ text
  intro hnil
  apply hne
  rw [Reader.withText]
  change List.map _ ((particle >>= _ : Reader _) text) = []
  rw [hnil, List.map_nil]

/-- A quote, or a sentence that opens with one, behind some words. -/
lemma afterWords (words : List String) {last : String} (hl : words.getLast? = some last) (c : Char)
    (hc : (chars last).getLast? = some c) (hq : ∀ word ∈ words, '"' ∉ chars word)
    (hm : c ∈ ['d', 'e', 'f']) {r : Reader α} (hr : FirstQuote (fun u => u = [] ∨ OpensSentence u) r) :
    FirstQuote OpensSentence (phrase words >>= fun _ => blanks >>= fun _ => r) := by
  have hb : FirstQuote (fun u => (∀ d ∈ u, isSpace d = true) ∨ OpensSentence u) (blanks >>= fun _ => r) := by
    apply bind_right takes_blanks (fun _ => not_mem_of_forall_isSpace) fun _ => hr
    rintro gap u hgap (rfl | hu)
    · exact .inl (by simpa using hgap)
    · exact .inr (hu.append_left gap)
  apply bind_right (takes_phrase hl hc hq) (fun _ h => h.1) fun _ => hb
  rintro taken u ⟨_, htaken⟩ (hu | hu)
  · exact .inl ⟨c, hm, htaken.append_right hu⟩
  · exact hu.append_left taken

/-- A quote behind some words and an article. -/
lemma afterArticle (words : List String) {last : String} (hl : words.getLast? = some last) (c : Char)
    (hc : (chars last).getLast? = some c) (hq : ∀ word ∈ words, '"' ∉ chars word)
    {r : Reader α} (hr : FirstQuote (· = []) r) :
    FirstQuote (EndsBeforeArticle c)
      (phrase words >>= fun _ => blanks >>= fun _ => Enumeration.article >>= fun _ => r) := by
  have ha : FirstQuote (fun u => ∃ gap, (∀ d ∈ gap, isSpace d = true) ∧
      (u = 'a' :: gap ∨ u = 'a' :: 'n' :: gap)) (Enumeration.article >>= fun _ => r) := by
    refine bind_right takes_article ?_ (fun _ => hr) ?_
    · rintro _ ⟨gap, hgap, rfl | rfl⟩ <;> simpa using not_mem_of_forall_isSpace hgap
    · rintro taken _ htaken rfl
      rwa [List.append_nil]
  have hb : FirstQuote (fun u => ∃ before gap, (∀ d ∈ before, isSpace d = true) ∧ (∀ d ∈ gap, isSpace d = true) ∧
      (u = before ++ 'a' :: gap ∨ u = before ++ 'a' :: 'n' :: gap))
      (blanks >>= fun _ => Enumeration.article >>= fun _ => r) := by
    apply bind_right takes_blanks (fun _ => not_mem_of_forall_isSpace) fun _ => ha
    rintro before _ hbefore ⟨gap, hgap, rfl | rfl⟩
    · exact ⟨before, gap, hbefore, hgap, .inl rfl⟩
    · exact ⟨before, gap, hbefore, hgap, .inr rfl⟩
  apply bind_right (takes_phrase hl hc hq) (fun _ h => h.1) fun _ => hb
  rintro taken _ ⟨_, htaken⟩ ⟨before, gap, hbefore, hgap, rfl | rfl⟩
  · exact ⟨taken ++ before, gap, .inl (by simp), hgap, htaken.append_right hbefore⟩
  · exact ⟨taken ++ before, gap, .inr (by simp), hgap, htaken.append_right hbefore⟩

end FirstQuote

/-- A reader of a text that has no quote before the piece that is read next. -/
lemma FirstQuote.after {r : Reader α} {f : α → Reader β} (hr : Avoids '"' r)
    (hf : ∀ a, FirstQuote OpensSentence (f a)) : FirstQuote OpensSentence (r >>= f) :=
  FirstQuote.bind_right hr (fun _ h => h) hf fun taken _ _ hu => hu.append_left taken

end Reader

namespace Grammar

open Reader

lemma firstQuote_fieldNames : FirstQuote OpensSentence fieldNames := by
  refine FirstQuote.afterWords ["field", "named"] rfl 'd' rfl (by decide) (by decide) (FirstQuote.firstOf ?_)
  simp only [List.forall_mem_cons]
  refine ⟨?_, ?_, List.forall_mem_nil _⟩
  · exact (FirstQuote.quotedNonempty.bind_left _).mono fun _ h => .inl h
  · refine FirstQuote.mono ?_ fun _ h => .inr h
    refine FirstQuote.afterWords ["one", "of"] rfl 'f' rfl (by decide) (by decide) ?_
    exact ((FirstQuote.quotedList "or" FirstQuote.quotedNonempty).bind_left _).mono fun _ h => .inl h

section

variable {g : Grammar} (hg : ∀ name ∈ g.roles, '"' ∉ chars name)

include hg

lemma avoids_constraintStart : Avoids '"' g.constraintStart := by
  have hb : Avoids '"' blanks := Avoids.blanks isSpace_quote
  have hmodal : Avoids '"' modal := by
    apply Takes.firstOf
    simp only [List.forall_mem_cons]
    exact ⟨Takes.keyword (by decide) _, Takes.keyword (by decide) _, Takes.keyword (by decide) _,
      List.forall_mem_nil _⟩
  exact (avoids_subject hg).bind fun _ => (avoids_exclusion hg).optional.bind fun _ => hmodal.bind fun _ =>
    hb.bind fun _ => (Takes.literal (by decide)).bind fun _ => hb.bind fun _ =>
      (Avoids.article (by decide) isSpace_quote).bind fun _ => Takes.pure _

omit hg in
lemma avoids_typePhrase : Avoids '"' typePhrase := by
  have hwords : ∀ phrase ∈ TypePhrase.all, '"' ∉ chars phrase.token := by decide +kernel
  refine Takes.bind (Takes.firstOf ?_) fun _ => (Avoids.blanks isSpace_quote).bind fun _ => Takes.pure _
  intro r hr
  obtain ⟨phrase, hm, rfl⟩ := List.mem_map.mp hr
  apply Takes.keyword
  exact hwords phrase hm

lemma firstQuote_constraint : FirstQuote OpensSentence g.constraint :=
  FirstQuote.after (avoids_constraintStart hg) fun _ =>
    FirstQuote.after avoids_typePhrase.optional fun _ => firstQuote_fieldNames.bind_left _

lemma firstQuote_onlyOneOf : FirstQuote OpensSentence g.onlyOneOf := by
  have hb : Avoids '"' blanks := Avoids.blanks isSpace_quote
  have hstart : Avoids '"' g.onlyOneStart :=
    (avoids_subject hg).bind fun _ => (Avoids.phrase (by decide) isSpace_quote).bind fun _ =>
      hb.bind fun _ => Takes.pure _
  refine FirstQuote.after hstart fun _ => ?_
  refine FirstQuote.afterWords ["one", "of"] rfl 'f' rfl (by decide) (by decide) ?_
  exact ((FirstQuote.quotedList "and" FirstQuote.quotedNonempty).bind_left _).mono fun _ h => .inl h

omit hg in
lemma firstQuote_condition : FirstQuote OpensSentence (firstOf [valueCondition, presenceCondition]) := by
  apply FirstQuote.firstOf
  simp only [List.forall_mem_cons]
  refine ⟨?_, ?_, List.forall_mem_nil _⟩
  · refine FirstQuote.afterWords ["whose"] rfl 'e' rfl (by decide) (by decide) ?_
    exact (FirstQuote.quotedNonempty.bind_left _).mono fun _ h => .inl h
  · refine FirstQuote.mono (FirstQuote.afterArticle ["with"] rfl 'h' rfl (by decide)
      (FirstQuote.quotedNonempty.bind_left _)) ?_
    exact fun _ h => .inr ⟨'h', by decide, h⟩

lemma firstQuote_roleDefinition : FirstQuote OpensSentence g.roleDefinition := by
  refine FirstQuote.after (avoids_subject hg) fun _ => FirstQuote.optional_bind firstQuote_condition ?_
  refine FirstQuote.mono (FirstQuote.afterArticle ["is"] rfl 's' rfl (by decide)
    (FirstQuote.quotedNonempty.bind_left _)) ?_
  exact fun _ h => .inr ⟨'s', by decide, h⟩

end

end Grammar

/-! Declarations of the root. -/

/-- What a root declaration is searched for by. -/
def rootDeclaration : Reader String := do
  Reader.phrase ["This", "document", "specifies", "a", "JSON", "object", "called"]
  Reader.blanks
  Enumeration.article
  let role ← Reader.quotedNonempty
  Reader.literal ['.']
  pure (String.ofList role)

lemma rootRole?_eq_search? (line : List Char) : rootRole? line = Reader.search? rootDeclaration line :=
  rfl

lemma firstQuote_rootDeclaration : Reader.FirstQuote (EndsBeforeArticle 'd') rootDeclaration :=
  Reader.FirstQuote.afterArticle ["This", "document", "specifies", "a", "JSON", "object", "called"] rfl 'd' rfl
    (by decide) (Reader.FirstQuote.quotedNonempty.bind_left _)

lemma eq_of_first_quote {u v u' v' : List Char} (h : u ++ '"' :: v = u' ++ '"' :: v') (hu : '"' ∉ u)
    (hu' : '"' ∉ u') : u = u' := by
  have ht {u : List Char} (hu : '"' ∉ u) (v : List Char) : (u ++ '"' :: v).takeWhile (· ≠ '"') = u := by
    rw [List.takeWhile_append_of_pos, List.takeWhile_cons_of_neg (by simp), List.append_nil]
    intro c hc
    rw [decide_eq_true_eq]
    rintro rfl
    exact hu hc
  rw [← ht hu v, h, ht hu' v']

/-- No root declaration stands in a line that says a trailer of a role, if none stands in the trailer and the
line has its first quote where sentences have it. -/
lemma rootRole?_spokenOf {role trailer : String} (hr : '"' ∉ chars role)
    (ht : ∀ v, v <:+ chars trailer → rootDeclaration v = [])
    (hs : ∃ u v, Draft.spokenOf role trailer = u ++ '"' :: v ∧ '"' ∉ u ∧ OpensSentence u) :
    rootRole? (Draft.spokenOf role trailer) = none := by
  rw [rootRole?_eq_search?, Reader.search?_eq_none_iff]
  rintro v ⟨x, hx⟩
  by_contra hne
  have hfront : '"' ∉ 'A' :: ' ' :: chars role ++ [' '] := by simpa using hr
  have hspoken : Draft.spokenOf role trailer = ('A' :: ' ' :: chars role ++ [' ']) ++ chars trailer := by
    simp [Draft.spokenOf]
  rw [hspoken] at hx
  rcases List.append_eq_append_iff.mp hx with ⟨y, hy, rfl⟩ | ⟨y, _, hy⟩
  · -- The declaration would start before the trailer, and so hold the first quote of the line.
    obtain ⟨u, w, hu, hqu, hd⟩ := firstQuote_rootDeclaration _ hne
    obtain ⟨u', w', hu', hqu', ho⟩ := hs
    have hqx : '"' ∉ x := fun h => hfront (hy ▸ List.mem_append_left _ h)
    have hqxu : '"' ∉ x ++ u := by
      rw [List.mem_append, not_or]
      exact ⟨hqx, hqu⟩
    have he : u' ++ '"' :: w' = (x ++ u) ++ '"' :: w := by
      rw [← hu', hspoken, ← hx, hu, List.append_assoc]
    rw [eq_of_first_quote he hqu' hqxu] at ho
    exact not_opensSentence (hd.append_left x) ho
  · exact hne (ht v ⟨y, hy.symm⟩)

end ProseSchema
