import ProseSchema.Proofs.Mentions

/-!
# The items of a list

From the text that a list takes up its items are recovered, in their order and without any others: what is
between quotes, or the roles behind articles. Roles are told apart only where each of them is the longest one
that stands in its place.
-/

namespace ProseSchema

namespace Enumeration

open Reader

/-! Quoted names. -/

lemma quotedFrom_between {u : List Char} (h : '"' ∉ u) (text : List Char) :
    quotedFrom none (u ++ text) = quotedFrom none text := by
  induction u with
  | nil => rfl
  | cons c u ih =>
    rw [List.mem_cons, not_or] at h
    rw [List.cons_append, quotedFrom, if_neg (Ne.symm h.1), ih h.2]

lemma quotedFrom_inside {u : List Char} (h : '"' ∉ u) (inside text : List Char) :
    quotedFrom (some inside) (u ++ '"' :: text) =
      String.ofList (inside.reverse ++ u) :: quotedFrom none text := by
  induction u generalizing inside with
  | nil => simp [quotedFrom]
  | cons c u ih =>
    rw [List.mem_cons, not_or] at h
    rw [List.cons_append, quotedFrom, if_neg (Ne.symm h.1), ih h.2]
    simp

lemma quotedFrom_quote {name : String} (h : '"' ∉ chars name) (text : List Char) :
    quotedFrom none (quote name ++ text) = name :: quotedFrom none text := by
  have hi := quotedFrom_inside h [] text
  simpa [quote, quotedFrom] using hi

lemma quotedFrom_behind {connector : String} (hc : '"' ∉ chars connector) {names : List String}
    (hn : ∀ name ∈ names, '"' ∉ chars name) (comma : Bool) :
    quotedFrom none (behind connector comma (names.map quote)) = names := by
  induction names generalizing comma with
  | nil => rfl
  | cons name others ih =>
    rw [List.forall_mem_cons] at hn
    have hq := quotedFrom_quote hn.1
    cases others with
    | nil =>
      have hb : '"' ∉ (if comma then [','] else []) ++ ' ' :: (chars connector ++ [' ']) := by
        cases comma <;> simpa using hc
      have ht : behind connector comma ([name].map quote) =
          (if comma then [','] else []) ++ ' ' :: (chars connector ++ [' ']) ++ (quote name ++ []) := by
        simp [behind]
      rw [ht, quotedFrom_between hb, hq]
      rfl
    | cons other others =>
      have ht : behind connector comma ((name :: other :: others).map quote) =
          [',', ' '] ++ (quote name ++ behind connector true ((other :: others).map quote)) := by
        simp [behind]
      rw [ht, quotedFrom_between (by decide), hq, ih hn.2]

theorem quotedItems_text {connector : String} (hc : '"' ∉ chars connector) {names : List String}
    (hn : ∀ name ∈ names, '"' ∉ chars name) : quotedItems (text connector (names.map quote)) = names := by
  cases names with
  | nil => rfl
  | cons name others =>
    rw [List.forall_mem_cons] at hn
    rw [quotedItems, List.map_cons, text, quotedFrom_quote hn.1, quotedFrom_behind hc hn.2]

/-! Roles behind articles. -/

lemma isArticle_article (w : Wording) (word : String) : IsArticle (w.article word) := by
  have hg : IsGap [' '] := ⟨List.cons_ne_nil _ _, by simp⟩
  cases h : w.an word
  · exact ⟨[' '], hg, .inl (by simp [Wording.article, h])⟩
  · exact ⟨[' '], hg, .inr (by simp [Wording.article, h])⟩

/-- What is written behind an item continues a list, and each role in it is as it was among the items. -/
lemma exists_continues (w : Wording) {P : String → List Char → Prop} {connector : String}
    {others : List String} {comma : Bool} (hcomma : others = [] → comma = false)
    (h : Along connector w.item (fun _ => P) [] true others) :
    ∃ places, Continues connector comma places (behind connector comma (others.map w.item)) ∧
      places.map Prod.fst = others ∧ ∀ p ∈ places, P p.1 p.2 := by
  have hg : IsGap [' '] := ⟨List.cons_ne_nil _ _, by simp⟩
  induction others generalizing comma with
  | nil =>
    obtain rfl := hcomma rfl
    exact ⟨[], .stop, rfl, List.forall_mem_nil _⟩
  | cons other others ih =>
    obtain ⟨hother, h⟩ := h
    rw [List.append_nil] at hother
    have hu := isArticle_article w other
    cases others with
    | nil =>
      have ht : behind connector comma ([other].map w.item) = (if comma then [','] else []) ++ [' '] ++
          (chars connector ++ ([' '] ++ (w.article other ++ (chars other ++ [])))) := by
        simp [behind, Wording.item]
      rw [ht]
      exact ⟨[(other, [])], .last comma hg hg hu, rfl, List.forall_mem_singleton.mpr hother⟩
    | cons third others =>
      obtain ⟨places, hc, hmap, hp⟩ : ∃ places, Continues connector true places
          (behind connector true ((third :: others).map w.item)) ∧ places.map Prod.fst = third :: others ∧
            ∀ p ∈ places, P p.1 p.2 := ih (by simp) h
      have ht : behind connector comma ((other :: third :: others).map w.item) = ',' :: [' '] ++
          (w.article other ++ (chars other ++ behind connector true ((third :: others).map w.item))) := by
        simp [behind, Wording.item]
      rw [ht]
      exact ⟨_, .more comma hg hu hc, by rw [List.map_cons, hmap], List.forall_mem_cons.mpr ⟨hother, hp⟩⟩

/-- Items that are written in a row are a list. -/
lemma exists_isList_text (w : Wording) {P : String → List Char → Prop} {connector : String}
    {listed : List String} (hne : listed ≠ []) (h : Along connector w.item (fun _ => P) [] false listed) :
    ∃ placed, IsList connector placed (text connector (listed.map w.item)) ∧ placed.map Prod.fst = listed ∧
      ∀ p ∈ placed, P p.1 p.2 := by
  obtain ⟨role, others, rfl⟩ := List.exists_cons_of_ne_nil hne
  obtain ⟨hrole, h⟩ := h
  rw [List.append_nil] at hrole
  obtain ⟨places, hc, hmap, hp⟩ := exists_continues w (fun _ => rfl) h
  rw [List.map_cons, text, Wording.item, List.append_assoc]
  exact ⟨_, .intro (isArticle_article w role) hc, by rw [List.map_cons, hmap], List.forall_mem_cons.mpr ⟨hrole, hp⟩⟩

variable {roles : List String} (hroles : ∀ role ∈ roles, IsRoleName role) (w : Wording)

include hroles

/-- From the text of a list its roles are recovered, where each is the longest one that stands there. -/
theorem mentions_text {connector : String} (hc : connector ∈ ["or", "and"]) {listed : List String}
    (hm : ∀ role ∈ listed, role ∈ roles)
    (hl : Along connector w.item (fun _ => IsLongest roles) [] false listed) :
    mentions (Grammar.ofRoles roles).roles (text connector (listed.map w.item)) = listed := by
  by_cases hne : listed = []
  · subst hne
    rfl
  · obtain ⟨placed, hlist, rfl, hlongest⟩ := exists_isList_text w hne hl
    have hsolid : ∀ role ∈ roles, chars role ≠ [] ∧ Solid (chars role) :=
      fun role hr => ⟨(hroles role hr).nonempty, (hroles role hr).first⟩
    have hnames : ∀ p ∈ placed, p.1 ∈ candidates (Grammar.ofRoles roles).roles :=
      fun p hp => mem_candidates_iff.mpr (.inl (hm p.1 (List.mem_map_of_mem hp)))
    exact (mentions_eq_iff hsolid hc hlist hnames).mpr hlongest

/-- No longer known role stands in place of the role as a word of its own. -/
def IsLongestWord (roles : List String) (role : String) (rest : List Char) : Prop :=
  ∀ other behind, Displaces roles role rest other behind → GoesOn behind

/-- What is read behind the text of a list is told the roles that are recovered from it. -/
lemma outcome_roleList_eq {connector : String} (hc : connector ∈ ["or", "and"]) {listed : List String}
    (hm : ∀ role ∈ listed, role ∈ roles) (hl : Along connector w.item (fun _ => IsLongest roles) [] false listed)
    (after : List Char) {γ : Type} (next : List String → List Char → Option γ) :
    ∃ behind : List Char → Option γ, behind after = next listed after ∧
      (∀ rest, ∃ names, behind rest = next names rest) ∧
      ((Grammar.ofRoles roles).roleList connector).outcome
          (fun read rest => next (mentions (Grammar.ofRoles roles).roles read) rest)
          (text connector (listed.map w.item) ++ after) =
        (list connector (item true (oneOf (Grammar.ofRoles roles).roles))).outcome (fun _ => behind)
          (text connector (listed.map w.item) ++ after) := by
  refine ⟨_, ?_, fun rest => ⟨_, rfl⟩, outcome_snd_withText _ _ _⟩
  have htake (u : List Char) : (u ++ after).take ((u ++ after).length - after.length) = u := by simp
  rw [htake, mentions_text hroles w hc hm hl]

/-- A list of roles is read, and its roles are recovered, in front of a word if each longer role in place of its
own ends amid a word. -/
theorem outcome_listed {connector : String} (hc : connector ∈ ["or", "and"]) {listed : List String}
    (hne : listed ≠ []) (hm : ∀ role ∈ listed, role ∈ roles)
    (hl : Along connector w.item (fun _ => IsLongest roles) [] false listed) {rest : List Char} (hs : Solid rest)
    (hlw : Along connector w.item (fun _ => IsLongestWord roles) (' ' :: rest) false listed)
    (hends : EndsList connector (' ' :: rest)) {γ : Type} (next : List String → List Char → Option γ) {c : γ}
    (hn : next listed rest = some c) :
    ((Grammar.ofRoles roles).roleList connector).outcome (fun read text => blanks.outcome
      (fun _ text => next (mentions (Grammar.ofRoles roles).roles read) text) text)
        (text connector (listed.map w.item) ++ ' ' :: rest) = some c := by
  obtain ⟨behind, hbehind, hnames, hread⟩ := outcome_roleList_eq hroles w hc hm hl (' ' :: rest)
    fun names => blanks.outcome fun _ text => next names text
  rw [hread]
  apply (readsItems_roles hroles w hc).outcome_list_of_none hne hm hends
  · rw [hbehind, outcome_blanks_cons _ hs, hn]
  · apply hlw.imp
    rintro role - place u h t ⟨other, hd⟩
    obtain ⟨names, ht⟩ := hnames t
    have hgoes := h other t hd
    exact outcome_remainder_of_goesOn connector (takes_item _) hgoes
      (by rw [ht, outcome_blanks_of_solid _ hgoes.solid]) place

end Enumeration

end ProseSchema
