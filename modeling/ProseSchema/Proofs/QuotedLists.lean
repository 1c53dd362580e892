import ProseSchema.Proofs.QuotedNames
import ProseSchema.Proofs.QuotelessLines

namespace ProseSchema

namespace Enumeration

open Reader

/-- The text is a quoted name behind a comma and white space. -/
def IsCommaName (name : String) (text : List Char) : Prop :=
  ∃ gap, IsGap gap ∧ text = ',' :: (gap ++ quote name)

/-- The text is a list of names as prose has it, each name between quotes. -/
inductive IsQuotedList (connector : String) : List String → List Char → Prop
  | one (name : String) : IsQuotedList connector [name] (quote name)
  | two (first last : String) {gap gap' : List Char} : IsGap gap → IsGap gap' →
      IsQuotedList connector [first, last] (quote first ++ (gap ++ (chars connector ++ (gap' ++ quote last))))
  | more (first last : String) {between : List String} {texts : List (List Char)} {gap gap' : List Char} :
      between ≠ [] → List.Forall₂ IsCommaName between texts → IsGap gap → IsGap gap' →
      IsQuotedList connector (first :: (between ++ [last]))
        (quote first ++ (texts.flatten ++ ',' :: (gap ++ (chars connector ++ (gap' ++ quote last)))))

lemma IsCommaName.ne_nil {name : String} {text : List Char} (h : IsCommaName name text) : text ≠ [] := by
  obtain ⟨gap, _, rfl⟩ := h
  exact List.cons_ne_nil _ _

/-- The reader reads the good names and no others, each from its text between quotes. -/
structure ReadsNames (particle : Reader (List Char)) (good : String → Prop) : Prop where
  taken : ∀ {text way}, way ∈ particle text → good (String.ofList way.1) ∧ text = quote (String.ofList way.1) ++ way.2
  reads : ∀ {name}, good name → ∀ rest, (chars name, rest) ∈ particle (quote name ++ rest)

lemma readsNames_quotedNonempty : ReadsNames quotedNonempty IsQuotable where
  taken h := ⟨(mem_quotedNonempty h).2, (mem_quotedNonempty h).1⟩
  reads := by
    intro name hn rest
    have h := outcome_quotedNonempty (fun content rest => some (content, rest)) hn.2 hn.1 rest
    rw [← head?_eq_outcome] at h
    simpa [quote] using List.mem_of_head? h

lemma readsNames_quoted : ReadsNames quoted ('"' ∉ chars ·) where
  taken := by
    intro text way h
    obtain ⟨opened, hopened, h⟩ := mem_bind.mp h
    obtain ⟨content, hcontent, h⟩ := mem_bind.mp h
    obtain ⟨closed, hclosed, h⟩ := mem_bind.mp h
    obtain rfl := List.mem_singleton.mp h
    obtain ⟨ht, hq⟩ := mem_span hcontent
    constructor
    · rw [chars_eq_toList, String.toList_ofList]
      exact fun hm => absurd (hq _ hm) (by simp)
    · rw [mem_literal hopened, ht, mem_literal hclosed]
      simp [quote]
  reads := by
    intro name hn rest
    have h := outcome_quoted (fun content rest => some (content, rest)) hn rest
    rw [← head?_eq_outcome] at h
    simpa [quote] using List.mem_of_head? h

section

variable {connector : String} {particle : Reader (List Char)} {good : String → Prop}
  (hp : ReadsNames particle good)

include hp

/-! What a list takes up. -/

lemma isCommaName_of_mem {text : List Char} {way : List Char × List Char} (h : way ∈ commaItem particle text) :
    ∃ u, (good (String.ofList way.1) ∧ IsCommaName (String.ofList way.1) u) ∧ text = u ++ way.2 := by
  obtain ⟨comma, hcomma, h⟩ := mem_bind.mp h
  obtain ⟨blank, hblank, h⟩ := mem_bind.mp h
  obtain ⟨gap, hg, hgap⟩ := mem_blanks hblank
  obtain ⟨hgood, ht⟩ := hp.taken h
  refine ⟨_, ⟨hgood, gap, hg, rfl⟩, ?_⟩
  rw [mem_literal hcomma, hgap, ht]
  simp

/-- The names between the first and the last, and the comma behind them. -/
lemma commaNames_of_mem {text : List Char} {way : List (List Char) × List Char} (h : way ∈ middle particle text) :
    way.1 ≠ [] ∧ (∀ name ∈ way.1.map String.ofList, good name) ∧
      ∃ texts, List.Forall₂ IsCommaName (way.1.map String.ofList) texts ∧ text = texts.flatten ++ ',' :: way.2 := by
  obtain ⟨items, hitems, h⟩ := mem_bind.mp h
  obtain ⟨comma, hcomma, h⟩ := mem_bind.mp h
  obtain rfl := List.mem_singleton.mp h
  obtain ⟨first, hfirst, h⟩ := mem_bind.mp hitems
  obtain ⟨others, hothers, h⟩ := mem_bind.mp h
  obtain rfl := List.mem_singleton.mp h
  obtain ⟨u, hu, ht⟩ := isCommaName_of_mem hp hfirst
  have hothers : others ∈ upTo (commaItem particle) first.2.length first.2 := hothers
  obtain ⟨us, hus, ht'⟩ := exists_texts_of_mem_upTo
    (fun name u => good (String.ofList name) ∧ IsCommaName (String.ofList name) u)
    (fun _ _ => isCommaName_of_mem hp) hothers
  have hall : List.Forall₂ (fun name u => good name ∧ IsCommaName name u)
      ((first.1 :: others.1).map String.ofList) (u :: us) :=
    .cons hu (List.forall₂_map_left_iff.mpr hus)
  obtain ⟨hgood, htexts⟩ := (List.forall₂_and_left _ _).mp hall
  refine ⟨List.cons_ne_nil _ _, hgood, u :: us, htexts, ?_⟩
  rw [ht, ht', mem_literal hcomma]
  simp

lemma isQuotedList_of_mem {text : List Char} {way : List (List Char) × List Char}
    (h : way ∈ list connector particle text) :
    (∀ name ∈ way.1.map String.ofList, good name) ∧
      ∃ u, IsQuotedList connector (way.1.map String.ofList) u ∧ text = u ++ way.2 := by
  obtain ⟨first, hfirst, h⟩ := mem_bind.mp h
  obtain ⟨others, hothers, h⟩ := mem_bind.mp h
  obtain rfl := List.mem_singleton.mp h
  obtain ⟨hgood, ht⟩ := hp.taken hfirst
  rcases mem_optional.mp hothers with ⟨listed, hlisted, rfl⟩ | rfl
  · obtain ⟨second, hsecond, h⟩ := mem_bind.mp hlisted
    obtain ⟨blank, hblank, h⟩ := mem_bind.mp h
    obtain ⟨word, hword, h⟩ := mem_bind.mp h
    obtain ⟨blank', hblank', h⟩ := mem_bind.mp h
    obtain ⟨last, hlast, h⟩ := mem_bind.mp h
    obtain rfl := List.mem_singleton.mp h
    obtain ⟨gap, hg, hgap⟩ := mem_blanks hblank
    obtain ⟨gap', hg', hgap'⟩ := mem_blanks hblank'
    obtain ⟨hgood', ht'⟩ := hp.taken hlast
    have hbehind : second.2 = gap ++ (chars connector ++ (gap' ++ (quote (String.ofList last.1) ++ last.2))) := by
      rw [hgap, mem_literal hword, hgap', ht']
    rcases mem_optional.mp hsecond with ⟨items, hitems, rfl⟩ | rfl
    · obtain ⟨hne, hgoods, texts, htexts, htext⟩ := commaNames_of_mem hp hitems
      have hlist := @IsQuotedList.more connector (String.ofList first.1) (String.ofList last.1) _ _ _ _
        (by simpa using hne) htexts hg hg'
      refine ⟨?_, _, by simpa using hlist, ?_⟩
      · simp only [Option.getD_some, List.map_cons, List.map_append, List.map_nil, List.forall_mem_cons,
          List.forall_mem_append]
        exact ⟨hgood, hgoods, hgood', List.forall_mem_nil _⟩
      · rw [ht, htext, hbehind]
        simp
    · have hlist := @IsQuotedList.two connector (String.ofList first.1) (String.ofList last.1) _ _ hg hg'
      refine ⟨by simpa using ⟨hgood, hgood'⟩, _, by simpa using hlist, ?_⟩
      have hbehind : first.2 = _ := hbehind
      rw [ht, hbehind]
      simp
  · exact ⟨by simpa using hgood, _, by simpa using IsQuotedList.one _, ht⟩

/-! What is read from a list. -/

lemma mem_commaItem {name : String} {u : List Char} (hu : IsCommaName name u) (hg : good name) (rest : List Char) :
    (chars name, rest) ∈ commaItem particle (u ++ rest) := by
  obtain ⟨gap, hgap, rfl⟩ := hu
  have hread : (chars name, rest) ∈ particle (quote name ++ rest) := hp.reads hg rest
  have hblanks : (chars name, rest) ∈ (blanks >>= fun _ => particle) (gap ++ (quote name ++ rest)) :=
    mem_bind.mpr ⟨_, mem_blanks_append hgap.1 hgap.2 _, hread⟩
  have hcomma : (chars name, rest) ∈ commaItem particle ([','] ++ (gap ++ (quote name ++ rest))) :=
    mem_bind.mpr ⟨_, mem_literal_append [','] _, hblanks⟩
  simpa using hcomma

lemma mem_upTo_commaNames {names : List String} {texts : List (List Char)} (h : List.Forall₂ IsCommaName names texts)
    (hg : ∀ name ∈ names, good name) (rest : List Char) {count : Nat} (hc : names.length ≤ count) :
    (names.map chars, rest) ∈ upTo (commaItem particle) count (texts.flatten ++ rest) := by
  induction h generalizing count with
  | nil =>
    cases count with
    | zero => exact List.mem_singleton_self _
    | succ count => exact List.mem_append_right _ (List.mem_singleton_self _)
  | @cons name u names texts hu _ ih =>
    obtain ⟨count, rfl⟩ : ∃ n, count = n + 1 := ⟨count - 1, by simp only [List.length_cons] at hc; omega⟩
    rw [List.forall_mem_cons] at hg
    have hothers := ih hg.2 (Nat.le_of_succ_le_succ hc)
    rw [List.flatten_cons, List.append_assoc]
    exact List.mem_append_left _ (mem_bind.mpr ⟨_, mem_commaItem hp hu hg.1 _,
      mem_bind.mpr ⟨_, hothers, List.mem_singleton_self _⟩⟩)

lemma mem_middle {names : List String} {texts : List (List Char)} (hne : names ≠ [])
    (h : List.Forall₂ IsCommaName names texts) (hg : ∀ name ∈ names, good name) (rest : List Char) :
    (names.map chars, rest) ∈ middle particle (texts.flatten ++ ',' :: rest) := by
  cases h with
  | nil => exact absurd rfl hne
  | @cons name u names texts hu hs =>
    rw [List.forall_mem_cons] at hg
    have hc : names.length ≤ (texts.flatten ++ ',' :: rest).length := by
      rw [List.length_append]
      exact Nat.le_add_right_of_le (length_le_flatten IsCommaName.ne_nil hs)
    have hothers : (names.map chars, ',' :: rest) ∈ many (commaItem particle) (texts.flatten ++ ',' :: rest) :=
      mem_upTo_commaNames hp hs hg.2 _ hc
    have hmany : ((name :: names).map chars, ',' :: rest) ∈
        many1 (commaItem particle) (u ++ (texts.flatten ++ ',' :: rest)) :=
      mem_bind.mpr ⟨_, mem_commaItem hp hu hg.1 _, mem_bind.mpr ⟨_, hothers, List.mem_singleton_self _⟩⟩
    rw [List.flatten_cons, List.append_assoc]
    exact mem_bind.mpr ⟨_, hmany, mem_bind.mpr ⟨_, mem_literal_append [','] rest, List.mem_singleton_self _⟩⟩

/-- The last name, behind the connector. -/
lemma mem_tail_of_optional {text : List Char} {between : Option (List (List Char))} {gap gap' : List Char}
    (hg : IsGap gap) (hg' : IsGap gap') {last : String} (hl : good last) (rest : List Char)
    (h : (between, gap ++ (chars connector ++ (gap' ++ (quote last ++ rest)))) ∈ optional (middle particle) text) :
    (between.getD [] ++ [chars last], rest) ∈ tail connector particle text :=
  mem_bind.mpr ⟨_, h, mem_bind.mpr ⟨_, mem_blanks_append hg.1 hg.2 _, mem_bind.mpr ⟨_, mem_literal_append _ _,
    mem_bind.mpr ⟨_, mem_blanks_append hg'.1 hg'.2 _, mem_bind.mpr ⟨_, hp.reads hl rest, List.mem_singleton_self _⟩⟩⟩⟩⟩

lemma mem_list_of_isQuotedList {names : List String} {u : List Char} (h : IsQuotedList connector names u)
    (hg : ∀ name ∈ names, good name) (rest : List Char) :
    (names.map chars, rest) ∈ list connector particle (u ++ rest) := by
  have hlist {first : String} (hf : good first) {others : Option (List (List Char))} {text : List Char}
      (ho : (others, rest) ∈ optional (tail connector particle) text) :
      (chars first :: others.getD [], rest) ∈ list connector particle (quote first ++ text) :=
    mem_bind.mpr ⟨_, hp.reads hf text, mem_bind.mpr ⟨_, ho, List.mem_singleton_self _⟩⟩
  cases h with
  | one name =>
    exact hlist (hg name List.mem_cons_self) (mem_optional.mpr (.inr rfl))
  | @two first last gap gap' hgap hgap' =>
    rw [List.forall_mem_cons, List.forall_mem_singleton] at hg
    have hbetween : (none, gap ++ (chars connector ++ (gap' ++ (quote last ++ rest)))) ∈
        optional (middle particle) (gap ++ (chars connector ++ (gap' ++ (quote last ++ rest)))) :=
      mem_optional.mpr (.inr rfl)
    have htail := mem_tail_of_optional hp hgap hgap' hg.2 rest hbetween
    simpa using hlist hg.1 (mem_optional.mpr (.inl ⟨_, htail, rfl⟩))
  | @more first last between texts gap gap' hne htexts hgap hgap' =>
    rw [List.forall_mem_cons, List.forall_mem_append, List.forall_mem_singleton] at hg
    have hbetween := mem_middle hp hne htexts hg.2.1 (gap ++ (chars connector ++ (gap' ++ (quote last ++ rest))))
    have htail := mem_tail_of_optional hp hgap hgap' hg.2.2 rest (mem_optional.mpr (.inl ⟨_, hbetween, rfl⟩))
    simpa using hlist hg.1 (mem_optional.mpr (.inl ⟨_, htail, rfl⟩))

lemma accepts_list_iff_of_readsNames (text : List Char) :
    accepts (list connector particle) text = true ↔
      ∃ names, (∀ name ∈ names, good name) ∧ IsQuotedList connector names text := by
  rw [accepts, isSome_whole?_iff]
  constructor
  · rintro ⟨names, h⟩
    obtain ⟨hgood, u, hu, ht⟩ := isQuotedList_of_mem hp h
    obtain rfl : text = u := by rw [ht, List.append_nil]
    exact ⟨_, hgood, hu⟩
  · rintro ⟨names, hgood, h⟩
    have hread := mem_list_of_isQuotedList hp h hgood []
    rw [List.append_nil] at hread
    exact ⟨_, hread⟩

end

/-! The names between the quotes of a list. -/

lemma quotedFrom_commaNames {names : List String} {texts : List (List Char)}
    (h : List.Forall₂ IsCommaName names texts) (hn : ∀ name ∈ names, '"' ∉ chars name) (rest : List Char) :
    quotedFrom none (texts.flatten ++ rest) = names ++ quotedFrom none rest := by
  induction h with
  | nil => rfl
  | @cons name u names texts hu _ ih =>
    obtain ⟨gap, hgap, rfl⟩ := hu
    rw [List.forall_mem_cons] at hn
    have hbetween : '"' ∉ ',' :: gap := by simpa using hgap.ne_cons isSpace_quote
    calc quotedFrom none (((',' :: (gap ++ quote name)) :: texts).flatten ++ rest)
        = quotedFrom none ((',' :: gap) ++ (quote name ++ (texts.flatten ++ rest))) := by simp
      _ = name :: (names ++ quotedFrom none rest) := by
        rw [quotedFrom_between hbetween, quotedFrom_quote hn.1, ih hn.2]

lemma quotedItems_of_isQuotedList {connector : String} (hc : '"' ∉ chars connector) {names : List String}
    {text : List Char} (h : IsQuotedList connector names text) (hn : ∀ name ∈ names, '"' ∉ chars name) :
    quotedItems text = names := by
  -- from the connector on
  have hlast {gap gap' : List Char} (hg : IsGap gap) (hg' : IsGap gap') {last : String} (hl : '"' ∉ chars last) :
      quotedFrom none (gap ++ (chars connector ++ (gap' ++ quote last))) = [last] := by
    have hquote := quotedFrom_quote hl []
    rw [List.append_nil] at hquote
    rw [quotedFrom_between (hg.ne_cons isSpace_quote), quotedFrom_between hc,
      quotedFrom_between (hg'.ne_cons isSpace_quote), hquote, quotedFrom]
  cases h with
  | one name =>
    have hquote := quotedFrom_quote (hn name List.mem_cons_self) []
    rwa [List.append_nil, quotedFrom] at hquote
  | two first last hg hg' =>
    rw [List.forall_mem_cons, List.forall_mem_singleton] at hn
    rw [quotedItems, quotedFrom_quote hn.1, hlast hg hg' hn.2]
  | @more first last between texts gap gap' _ htexts hg hg' =>
    rw [List.forall_mem_cons, List.forall_mem_append, List.forall_mem_singleton] at hn
    have hcomma : quotedFrom none (',' :: (gap ++ (chars connector ++ (gap' ++ quote last)))) = [last] := by
      have h := quotedFrom_between (u := [',']) (by decide) (gap ++ (chars connector ++ (gap' ++ quote last)))
      rw [hlast hg hg' hn.2.2] at h
      exact h
    rw [quotedItems, quotedFrom_quote hn.1, quotedFrom_commaNames htexts hn.2.1, hcomma]

/-- A text is a list of quoted names just where it is written like one, and its names are what stands between
its quotes. -/
theorem accepts_list_iff {connector : String} (hc : '"' ∉ chars connector) (text : List Char) :
    (accepts (list connector (item false quoted)) text = true ↔
        ∃ names, (∀ name ∈ names, '"' ∉ chars name) ∧ IsQuotedList connector names text) ∧
      (accepts (list connector (item false quotedNonempty)) text = true ↔
        ∃ names, (∀ name ∈ names, IsQuotable name) ∧ IsQuotedList connector names text) ∧
      ∀ names, (∀ name ∈ names, '"' ∉ chars name) → IsQuotedList connector names text →
        quotedItems text = names := by
  refine ⟨accepts_list_iff_of_readsNames readsNames_quoted text,
    accepts_list_iff_of_readsNames readsNames_quotedNonempty text, ?_⟩
  intro names hn h
  exact quotedItems_of_isQuotedList hc h hn

/-- Three names, the last of them empty, with a line end before the last. -/
theorem accepts_list_of_three_names : '"' ∉ chars "and" ∧
    accepts (list "and" (item false quoted)) (chars "\"a\", \"b\",\n and \"\"") = true ∧
    quotedItems (chars "\"a\", \"b\",\n and \"\"") = ["a", "b", ""] := by
  have hc : '"' ∉ chars "and" := by decide
  have hgap : IsGap [' '] := ⟨List.cons_ne_nil _ _, by simp⟩
  have hlist : IsQuotedList "and" ["a", "b", ""] (chars "\"a\", \"b\",\n and \"\"") :=
    @IsQuotedList.more "and" "a" "" ["b"] [chars ", \"b\""] ['\n', ' '] [' '] (by decide)
      (.cons ⟨[' '], hgap, by decide⟩ .nil) ⟨List.cons_ne_nil _ _, by simp [isSpace]⟩ hgap
  have hnames : ∀ name ∈ ["a", "b", ""], '"' ∉ chars name := by decide
  obtain ⟨hquoted, _, hitems⟩ := accepts_list_iff hc (chars "\"a\", \"b\",\n and \"\"")
  exact ⟨hc, hquoted.mpr ⟨_, hnames, hlist⟩, hitems _ hnames hlist⟩

end Enumeration

end ProseSchema
