import Mathlib.Data.List.Infix
import ProseSchema.Proofs.ListReading

/-!
# Reading roles

Known roles are tried longest first. So a role is read where it stands unless the text goes on as a longer
role does, and what comes next gets through behind that one too.
-/

namespace ProseSchema

namespace Grammar

lemma mem_insertName {name other : String} {names : List String} :
    other ∈ insertName name names ↔ other = name ∨ other ∈ names := by
  induction names with
  | nil => simp [insertName]
  | cons first names ih =>
    rw [insertName]
    split
    · next h =>
      subst h
      simp
    · split
      · simp
      · simp only [List.mem_cons, ih]
        tauto

lemma size_le_of_precedes {a b : String} (h : precedes a b = true) : b.utf8ByteSize ≤ a.utf8ByteSize := by
  rw [precedes] at h
  split at h
  · omega
  · exact (of_decide_eq_true h).le

lemma size_le_of_not_precedes {a b : String} (h : ¬precedes a b = true) :
    a.utf8ByteSize ≤ b.utf8ByteSize := by
  rw [precedes] at h
  split at h
  · omega
  · simpa using h

/-- Longest first. -/
def IsSorted (names : List String) : Prop :=
  names.Pairwise fun a b => b.utf8ByteSize ≤ a.utf8ByteSize

lemma isSorted_insertName (name : String) {names : List String} (h : IsSorted names) :
    IsSorted (insertName name names) := by
  induction names with
  | nil => exact List.pairwise_singleton _ _
  | cons first names ih =>
    obtain ⟨hf, hn⟩ := List.pairwise_cons.mp h
    rw [insertName]
    split
    · exact h
    · split
      · next hp =>
        have hs := size_le_of_precedes hp
        refine List.pairwise_cons.mpr ⟨fun other ho => ?_, h⟩
        rcases List.mem_cons.mp ho with rfl | ho
        · exact hs
        · exact (hf other ho).trans hs
      · next hp =>
        have hs := size_le_of_not_precedes hp
        refine List.pairwise_cons.mpr ⟨fun other ho => ?_, ih hn⟩
        rcases mem_insertName.mp ho with rfl | ho
        · exact hs
        · exact hf other ho

lemma mem_ofRoles {name : String} {roles : List String} : name ∈ (ofRoles roles).roles ↔ name ∈ roles := by
  change name ∈ roles.foldr insertName [] ↔ _
  induction roles with
  | nil => rfl
  | cons role roles ih => rw [List.foldr_cons, mem_insertName, ih, List.mem_cons]

lemma isSorted_ofRoles (roles : List String) : IsSorted (ofRoles roles).roles := by
  change IsSorted (roles.foldr insertName [])
  induction roles with
  | nil => exact List.Pairwise.nil
  | cons role roles ih => exact isSorted_insertName role ih

open Reader in
lemma takes_oneOf {q : List Char → Prop} {names : List String} (h : ∀ name ∈ names, q (chars name)) (he : q []) :
    Takes q (Enumeration.oneOf names) := by
  apply Takes.firstOf
  intro r hr
  obtain ⟨name, hn, rfl⟩ := List.mem_map.mp hr
  apply Takes.keyword
  split at hn
  · obtain rfl := List.mem_singleton.mp hn
    exact he
  · exact h name hn

end Grammar

lemma Reader.Takes.article {q : List Char → Prop} [Joins q] (ha : q ['a']) (hn : q ['n'])
    (hs : ∀ d, isSpace d = true → q [d]) : Takes q Enumeration.article :=
  (Takes.literal ha).bind fun _ => (Takes.literal hn).optional.bind fun _ => Takes.blanks hs

lemma Reader.Avoids.article {d : Char} (h : d ∉ ['a', 'n']) (hs : isSpace d = false) :
    Avoids d Enumeration.article := by
  simp only [List.mem_cons, List.not_mem_nil, or_false, not_or] at h
  exact Takes.article (by simpa using h.1) (by simpa using h.2) (Avoids.not_mem_singleton hs)

lemma utf8ByteSize_of_more {a b : String} {more : List Char} (h : chars b = chars a ++ more) :
    b.utf8ByteSize = a.utf8ByteSize + (String.ofList more).utf8ByteSize := by
  simp only [chars_eq_toList] at h
  have he : b = a ++ String.ofList more := String.toList_injective (by simpa using h)
  rw [he, String.utf8ByteSize_append]

lemma size_lt_of_more {a b : String} {more : List Char} (h : chars b = chars a ++ more) (hne : more ≠ []) :
    a.utf8ByteSize < b.utf8ByteSize := by
  have hz : (String.ofList more).utf8ByteSize ≠ 0 := by
    rw [Ne, String.utf8ByteSize_eq_zero_iff]
    intro hm
    apply hne
    simpa using congrArg String.toList hm
  rw [utf8ByteSize_of_more h]
  omega

/-- Of two names at the start of a text the one that is not shorter goes on where the other one ends. -/
lemma exists_more_of_prefix {a b : String} {text : List Char} (hne : b ≠ a)
    (hs : a.utf8ByteSize ≤ b.utf8ByteSize) (ha : chars a <+: text) (hb : chars b <+: text) :
    ∃ more, chars b = chars a ++ more ∧ more ≠ [] := by
  have hinj : chars b ≠ chars a := by
    intro h
    simp only [chars_eq_toList] at h
    exact hne (String.toList_injective h)
  rcases List.prefix_or_prefix_of_prefix ha hb with ⟨more, hm⟩ | ⟨more, hm⟩
  · refine ⟨more, hm.symm, ?_⟩
    rintro rfl
    rw [List.append_nil] at hm
    exact hinj hm.symm
  · have hmore : more = [] := by
      by_contra hmne
      exact absurd hs (not_le_of_gt (size_lt_of_more hm.symm hmne))
    rw [hmore, List.append_nil] at hm
    exact absurd hm hinj

lemma isLongest_nil (roles : List String) (role : String) : IsLongest roles role [] :=
  fun _ _ _ _ hmore => List.prefix_nil.mp hmore

/-- A longer role in place of the longest one within a text goes on behind this text. -/
lemma length_of_displaces {roles : List String} {role other : String} {u after behind : List Char}
    (h : IsLongest roles role u) (hd : Displaces roles role (u ++ after) other behind) :
    behind.length < after.length := by
  obtain ⟨ho, more, hmore, hne, hrest⟩ := hd
  rcases List.append_eq_append_iff.mp hrest with ⟨t, rfl, rfl⟩ | ⟨t, rfl, -⟩
  · have ht : t ≠ [] := by
      rintro rfl
      exact hne (h other ho _ hmore (by simp))
    have hpos := List.length_pos_of_ne_nil ht
    rw [List.length_append]
    omega
  · exact absurd (h other ho more hmore (List.prefix_append more t)) hne

namespace Reader

variable {α γ : Type}

lemma outcome_keyword_of_not_starting {word : String} {a : α} {next : α → List Char → Option γ}
    {text : List Char} (h : ¬chars word <+: text) : (keyword word a).outcome next text = none := by
  rw [keyword, outcome_bind, outcome_literal_of_not_starting _ h]

lemma outcome_keyword_append (word : String) (a : α) (next : α → List Char → Option γ)
    (text : List Char) : (keyword word a).outcome next (chars word ++ text) = next a text := by
  rw [keyword, outcome_bind, outcome_literal_append, outcome_pure]

end Reader

lemma IsRoleName.solid {role : String} (h : IsRoleName role) (rest : List Char) :
    Solid (chars role ++ rest) :=
  Solid.append h.first h.nonempty rest

namespace Enumeration

open Reader

variable {γ : Type}

lemma outcome_oneOf_eq {names : List String} (hne : names ≠ []) (next : String → List Char → Option γ)
    (text : List Char) : (oneOf names).outcome next text =
      names.findSome? fun name => (keyword name name).outcome next text := by
  rw [oneOf, List.isEmpty_eq_false_iff.mpr hne, outcome_firstOf, if_neg Bool.false_ne_true, List.findSome?_map]
  rfl

section

variable {roles : List String} {role : String} (hr : role ∈ roles)

include hr

/-- The known roles that are tried before a role are those that can displace it, and some that cannot stand there. -/
lemma exists_tried_before (rest : List Char) : ∃ before after,
    (Grammar.ofRoles roles).roles = before ++ role :: after ∧
      (∀ other ∈ before, ∀ behind, chars role ++ rest = chars other ++ behind →
        Displaces roles role rest other behind) ∧
      ∀ other behind, Displaces roles role rest other behind →
        other ∈ before ∧ chars role ++ rest = chars other ++ behind := by
  have hsort := Grammar.isSorted_ofRoles roles
  obtain ⟨before, after, hsplit, hnot⟩ := List.eq_append_cons_of_mem (Grammar.mem_ofRoles.mpr hr)
  rw [hsplit] at hsort
  obtain ⟨-, hafter, hbefore⟩ := List.pairwise_append.mp hsort
  refine ⟨before, after, hsplit, ?_, ?_⟩
  · intro other ho behind htext
    have hne : other ≠ role := fun h => hnot (h ▸ ho)
    obtain ⟨more, hmore, hmne⟩ := exists_more_of_prefix hne (hbefore other ho role List.mem_cons_self)
      (List.prefix_append (chars role) rest) ⟨behind, htext.symm⟩
    have hk : other ∈ roles := Grammar.mem_ofRoles.mp (by rw [hsplit]; exact List.mem_append_left _ ho)
    rw [hmore, List.append_assoc] at htext
    exact ⟨hk, more, hmore, hmne, List.append_cancel_left htext⟩
  · rintro other behind ⟨ho, more, hmore, hne, rfl⟩
    refine ⟨?_, by rw [hmore, List.append_assoc]⟩
    have hlonger : role.utf8ByteSize < other.utf8ByteSize := size_lt_of_more hmore hne
    have hm := Grammar.mem_ofRoles.mpr ho
    rw [hsplit, List.mem_append, List.mem_cons] at hm
    rcases hm with hm | rfl | hm
    · exact hm
    · exact absurd hlonger (lt_irrefl _)
    · exact absurd hlonger (not_lt_of_ge ((List.pairwise_cons.mp hafter).1 other hm))

/-- A role is read, and what comes next is read behind it, just where nothing gets through behind the longer known
roles in its place. -/
theorem gives_oneOf {next : String → List Char → Option γ} {rest : List Char} {c : γ} {p : Prop}
    (hne : ∀ other behind, Displaces roles role rest other behind → next other behind ≠ some c)
    (hn : Gives (next role rest) c p) :
    Gives ((oneOf (Grammar.ofRoles roles).roles).outcome next (chars role ++ rest)) c
      ((∀ other behind, Displaces roles role rest other behind → next other behind = none) ∧ p) := by
  obtain ⟨before, after, hsplit, hbefore, hdisplaces⟩ := exists_tried_before hr rest
  rw [outcome_oneOf_eq (by simp [hsplit]), hsplit, List.findSome?_append, List.findSome?_cons,
    outcome_keyword_append]
  cases hfound : before.findSome? fun name => (keyword name name).outcome next (chars role ++ rest) with
  | none =>
    rw [List.findSome?_eq_none_iff] at hfound
    have hnone : ∀ other behind, Displaces roles role rest other behind → next other behind = none := by
      intro other behind hd
      obtain ⟨ho, htext⟩ := hdisplaces other behind hd
      have := hfound other ho
      rwa [htext, outcome_keyword_append] at this
    rw [Option.none_or]
    obtain ⟨d, hd⟩ := Option.isSome_iff_exists.mp hn.isSome
    rw [hd] at hn ⊢
    exact hn.congr ⟨fun hp => ⟨hnone, hp⟩, And.right⟩
  | some d =>
    obtain ⟨other, ho, hd⟩ := List.exists_of_findSome?_eq_some hfound
    have hp : chars other <+: chars role ++ rest := by
      by_contra hp
      rw [outcome_keyword_of_not_starting hp] at hd
      exact absurd hd (Option.some_ne_none d).symm
    obtain ⟨behind, htext⟩ := hp
    rw [← htext, outcome_keyword_append] at hd
    have hdisplaced := hbefore other ho behind htext.symm
    refine ⟨rfl, fun h => ?_, fun h => ?_⟩
    · exact absurd (hd.trans h) (hne other behind hdisplaced)
    · exact absurd (hd.symm.trans (h.1 other behind hdisplaced)) (Option.some_ne_none d)

theorem outcome_oneOf {next : String → List Char → Option γ} {rest : List Char} {c : γ}
    (hnone : ∀ other behind, Displaces roles role rest other behind → next other behind = none)
    (hn : next role rest = some c) :
    (oneOf (Grammar.ofRoles roles).roles).outcome next (chars role ++ rest) = some c := by
  apply (gives_oneOf hr _ (Gives.of_eq hn)).eq_iff.mpr ⟨hnone, trivial⟩
  intro other behind hd
  rw [hnone other behind hd]
  exact (Option.some_ne_none c).symm

end

/-! Lists of roles. -/

@[simp] lemma outcome_article (w : Wording) (word : String) (next : Unit → List Char → Option γ)
    {rest : List Char} (h : Solid rest) : article.outcome next (w.article word ++ rest) = next () rest := by
  cases ha : w.an word <;> simp [article, Wording.article, ha, h]

lemma outcome_article_connector {connector : String} (hc : connector ∈ ["or", "and"])
    (next : Unit → List Char → Option γ) (rest : List Char) :
    article.outcome next (chars connector ++ rest) = none := by
  rcases List.mem_pair.mp hc with rfl | rfl <;> simp [article]

lemma solid_connector {connector : String} (hc : connector ∈ ["or", "and"]) (rest : List Char) :
    Solid (chars connector ++ rest) := by
  rcases List.mem_pair.mp hc with rfl | rfl <;> simp 

@[simp] lemma solid_item (w : Wording) (role : String) (rest : List Char) :
    Solid (w.item role ++ rest) := by
  simp [Wording.item, Wording.article]

lemma solid_items (w : Wording) (connector : String) {listed : List String} (hne : listed ≠ [])
    (rest : List Char) : Solid (text connector (listed.map w.item) ++ rest) := by
  obtain ⟨role, others, rfl⟩ := List.exists_cons_of_ne_nil hne
  rw [List.map_cons, text, List.append_assoc]
  exact solid_item w role _

lemma takes_item (names : List String) : Takes (fun _ => True) (item true (oneOf names)) :=
  (Takes.article trivial trivial fun _ _ => trivial).bind fun _ => Grammar.takes_oneOf (fun _ _ => trivial) trivial

/-- Roles behind articles are the items of a list. -/
lemma readsItems_roles {roles : List String} (hroles : ∀ role ∈ roles, IsRoleName role) (w : Wording)
    {connector : String} (hc : connector ∈ ["or", "and"]) :
    ReadsItems connector (item true (oneOf (Grammar.ofRoles roles).roles)) w.item (· ∈ roles)
      (fun role rest behind => ∃ other, Displaces roles role rest other behind) where
  reads := by
    intro role rest hr γ next c p hne hn
    have hs := (hroles role hr).solid rest
    rw [item, if_pos rfl, outcome_bind, Wording.item, List.append_assoc, outcome_article _ _ _ hs]
    apply (gives_oneOf hr (fun other behind hd => hne behind ⟨other, hd⟩) hn).congr
    simp only [forall_exists_index]
    rw [forall_comm]
  takes := takes_item _
  solid := solid_item w
  connector_solid := solid_connector hc
  no_connector := by
    intro rest γ next
    rw [item, if_pos rfl, outcome_bind, outcome_article_connector hc]

end Enumeration

end ProseSchema
