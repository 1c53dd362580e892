import Mathlib.Tactic.Lemma
import ProseSchema.Text.Reader
import ProseSchema.Text.Space

/-!
# The outcome of a reader

The ways of a reader are tried in their order, each with what comes next, and the first one that gets through
counts. The outcome of a sequence is the outcome of its first part, with the second part coming next; so
the reading of a text can be followed piece by piece.
-/

namespace ProseSchema

/-! White space. -/

/-- No letter is white space. -/
@[simp] lemma isSpace_of_isAlpha {c : Char} (h : c.isAlpha = true) : isSpace c = false := by
  have hl : 65 ≤ c.toNat ∧ c.toNat ≤ 122 := by
    rcases (Bool.or_eq_true c.isUpper c.isLower).mp h with h | h
    · have hc : 'A'.val ≤ c.val ∧ c.val ≤ 'Z'.val := of_decide_eq_true h
      exact ⟨hc.1, Nat.le_trans hc.2 (by decide)⟩
    · have hc : decide ('a'.val ≤ c.val) = true ∧ decide (c.val ≤ 'z'.val) = true :=
        (Bool.and_eq_true _ _).mp h
      exact ⟨Nat.le_trans (by decide) (of_decide_eq_true hc.1), of_decide_eq_true hc.2⟩
  rw [← Bool.not_eq_true]
  intro hs
  simp only [isSpace, Bool.or_eq_true, Bool.and_eq_true, decide_eq_true_eq, beq_iff_eq] at hs
  rcases hs with (((((((((⟨-, hs⟩ | rfl) | rfl) | rfl) | rfl) | ⟨hs, -⟩) | rfl) | rfl) | rfl) | rfl) | rfl
  · have hc : c.toNat ≤ 13 := hs
    omega
  iterate 4 exact absurd hl (by decide)
  · have hc : 0x2000 ≤ c.toNat := hs
    omega
  all_goals exact absurd hl (by decide)

@[simp] lemma isSpace_blank : isSpace ' ' = true := by
  decide

@[simp] lemma isSpace_quote : isSpace '"' = false := by
  decide

@[simp] lemma isSpace_comma : isSpace ',' = false := by
  decide

@[simp] lemma isSpace_stop : isSpace '.' = false := by
  decide

@[simp] lemma isSpace_semicolon : isSpace ';' = false := by
  decide

/-- The text does not start with white space. -/
def Solid (text : List Char) : Prop :=
  ∀ c ∈ text.head?, isSpace c = false

@[simp] lemma solid_nil : Solid [] := by
  simp [Solid]

@[simp] lemma solid_cons (c : Char) (text : List Char) : Solid (c :: text) ↔ isSpace c = false := by
  simp [Solid]

instance : (text : List Char) → Decidable (Solid text)
  | [] => .isTrue solid_nil
  | c :: text => decidable_of_iff (isSpace c = false) (solid_cons c text).symm

/-- The text has no white space. -/
def Spaceless (text : List Char) : Prop :=
  ∀ c ∈ text, isSpace c = false

instance (text : List Char) : Decidable (Spaceless text) :=
  List.decidableBAll _ text

lemma Spaceless.solid {text : List Char} (h : Spaceless text) : Solid text :=
  fun c hc => h c (List.mem_of_mem_head? hc)

lemma Solid.append {u : List Char} (hu : Solid u) (hne : u ≠ []) (v : List Char) : Solid (u ++ v) := by
  cases u with
  | nil => exact absurd rfl hne
  | cons c u => exact hu

namespace Reader

variable {α β γ : Type}

/-- The result of the first way from which what comes next has one. -/
def outcome (r : Reader α) (next : α → List Char → Option γ) (text : List Char) : Option γ :=
  (r text).findSome? fun way => next way.1 way.2

/-- Nothing is left over. -/
def ended (a : α) : List Char → Option α
  | [] => some a
  | _ :: _ => none

lemma ended_eq_some_iff {a b : α} {text : List Char} : ended a text = some b ↔ a = b ∧ text = [] := by
  cases text <;> simp [ended]

lemma outcome_eq_none {r : Reader α} {next : α → List Char → Option γ} {text : List Char}
    (h : r text = []) : r.outcome next text = none := by
  rw [outcome, h]
  rfl

lemma outcome_of_one_way {r : Reader α} {next : α → List Char → Option γ} {a : α}
    {text rest : List Char} (h : r text = [(a, rest)]) : r.outcome next text = next a rest := by
  rw [outcome, h, List.findSome?_cons]
  cases next a rest <;> rfl

section

variable (next : α → List Char → Option γ) (text : List Char)

@[simp] lemma outcome_pure (a : α) : (pure a : Reader α).outcome next text = next a text :=
  outcome_of_one_way rfl

@[simp] lemma outcome_bind (r : Reader β) (f : β → Reader α) :
    (r >>= f).outcome next text = r.outcome (fun b rest => (f b).outcome next rest) text := by
  change ((r text).flatMap fun way => f way.1 way.2).findSome? _ = _
  rw [outcome]
  induction r text with
  | nil => rfl
  | cons way ways ih =>
    rw [List.flatMap_cons, List.findSome?_append, List.findSome?_cons, ih, outcome]
    cases (f way.1 way.2).findSome? fun way => next way.1 way.2 <;> rfl

@[simp] lemma outcome_map (r : Reader β) (f : β → α) :
    (f <$> r).outcome next text = r.outcome (fun b rest => next (f b) rest) text := by
  change (r >>= fun b => pure (f b)).outcome next text = _
  simp

@[simp] lemma outcome_orElse (r q : Reader α) :
    (orElse r q).outcome next text = (r.outcome next text).or (q.outcome next text) :=
  List.findSome?_append

@[simp] lemma outcome_optional (r : Reader β) (next : Option β → List Char → Option γ) :
    (optional r).outcome next text =
      (r.outcome (fun b rest => next (some b) rest) text).or (next none text) := by
  simp [optional]

@[simp] lemma outcome_firstOf_nil : (firstOf []).outcome next text = none :=
  rfl

@[simp] lemma outcome_firstOf_cons (r : Reader α) (rs : List (Reader α)) :
    (firstOf (r :: rs)).outcome next text = (r.outcome next text).or ((firstOf rs).outcome next text) :=
  outcome_orElse next text r (firstOf rs)

lemma outcome_firstOf (rs : List (Reader α)) :
    (firstOf rs).outcome next text = rs.findSome? fun r => r.outcome next text := by
  induction rs with
  | nil => rfl
  | cons r rs ih =>
    rw [outcome_firstOf_cons, ih, List.findSome?_cons]
    cases r.outcome next text <;> rfl

end

/-- Where there is an outcome, there is a way. -/
lemma ne_nil_of_outcome {r : Reader α} {next : α → List Char → Option γ} {text : List Char} {c : γ}
    (h : r.outcome next text = some c) : r text ≠ [] := by
  intro hn
  rw [outcome_eq_none hn] at h
  exact absurd h (by simp)

lemma head?_eq_outcome (r : Reader α) (text : List Char) :
    (r text).head? = r.outcome (fun a rest => some (a, rest)) text := by
  rw [outcome]
  cases r text <;> rfl

lemma eq_nil_of_outcome {r : Reader α} {text : List Char}
    (h : r.outcome (fun a rest => some (a, rest)) text = none) : r text = [] := by
  rwa [← head?_eq_outcome, List.head?_eq_none_iff] at h

lemma isSome_first?_iff (r : Reader α) (text : List Char) :
    (first? r text).isSome = true ↔ r text ≠ [] := by
  rw [first?, Option.isSome_map, List.isSome_head?]

lemma whole?_eq_outcome (r : Reader α) (text : List Char) : whole? r text = r.outcome ended text := by
  change Option.map Prod.fst ((r text).flatMap fun way =>
    ((atEnd >>= fun _ => pure way.1 : Reader α) way.2)).head? = _
  unfold outcome
  induction r text with
  | nil => rfl
  | cons way ways ih =>
    obtain ⟨a, rest⟩ := way
    cases rest with
    | nil => rfl
    | cons c rest => exact ih

lemma search?_eq_none_iff (r : Reader α) (text : List Char) :
    search? r text = none ↔ ∀ v, v <:+ text → r v = [] := by
  have hfirst (text : List Char) : first? r text = none ↔ r text = [] := by
    rw [← Option.not_isSome_iff_eq_none, isSome_first?_iff, ne_eq, Classical.not_not]
  induction text with
  | nil => simp [search?, hfirst]
  | cons c text ih =>
    rw [search?]
    constructor
    · intro h v hv
      obtain ⟨hr, ht⟩ := Option.or_eq_none_iff.mp h
      rcases List.suffix_cons_iff.mp hv with rfl | hv
      · exact (hfirst _).mp hr
      · exact ih.mp ht v hv
    · intro h
      have ht : search? r text = none := ih.mpr fun v hv => h v (hv.trans (List.suffix_cons c text))
      exact Option.or_eq_none_iff.mpr ⟨(hfirst _).mpr (h _ List.suffix_rfl), ht⟩

/-! Texts that are read as they stand. -/

section

variable (next : Unit → List Char → Option γ) (text : List Char)

@[simp] lemma outcome_literal_nil : (literal []).outcome next text = next () text :=
  outcome_of_one_way rfl

@[simp] lemma outcome_literal_cons_nil (c : Char) (word : List Char) :
    (literal (c :: word)).outcome next [] = none :=
  rfl

@[simp] lemma outcome_literal_cons_cons (c d : Char) (word : List Char) :
    (literal (c :: word)).outcome next (d :: text) =
      if c = d then (literal word).outcome next text else none := by
  by_cases h : c = d
  · subst h
    simp [literal, outcome, List.isPrefixOf]
  · simp [literal, outcome, List.isPrefixOf, h]

lemma outcome_literal_of_not_starting {word text : List Char} (h : ¬word <+: text) :
    (literal word).outcome next text = none := by
  apply outcome_eq_none
  rw [literal, if_neg]
  rwa [List.isPrefixOf_iff_prefix]

lemma outcome_literal_append (word : List Char) :
    (literal word).outcome next (word ++ text) = next () text := by
  induction word with
  | nil => simp
  | cons c word ih => simpa using ih

end

section

variable (p : Char → Bool) (next : Char → List Char → Option γ)

@[simp] lemma outcome_char_nil : (char p).outcome next [] = none :=
  rfl

@[simp] lemma outcome_char_cons (c : Char) (text : List Char) :
    (char p).outcome next (c :: text) = if p c then next c text else none := by
  split
  · next h => exact outcome_of_one_way (by rw [char, if_pos h])
  · next h => exact outcome_eq_none (by rw [char, if_neg h])

end

section

variable (next : List Char → List Char → Option γ)

@[simp] lemma outcome_span (p : Char → Bool) (text : List Char) :
    (span p).outcome next text = next (text.takeWhile p) (text.dropWhile p) :=
  outcome_of_one_way rfl

lemma outcome_span_append (p : Char → Bool) {u text : List Char} (hu : ∀ c ∈ u, p c = true)
    (h : ∀ c ∈ text.head?, p c = false) : (span p).outcome next (u ++ text) = next u text := by
  have ht : text.takeWhile p = [] ∧ text.dropWhile p = text := by
    cases text with
    | nil => exact ⟨rfl, rfl⟩
    | cons c text => simp [h c rfl]
  rw [outcome_span, List.takeWhile_append_of_pos hu, List.dropWhile_append_of_pos hu, ht.1, ht.2,
    List.append_nil]

/-- A run stops where a character of another class follows. -/
lemma outcome_run_stop (p : Char → Bool) {text : List Char} (h : ∀ c ∈ text.head?, p c = false) :
    (run p).outcome next text = next [] text := by
  apply outcome_of_one_way
  cases text with
  | nil => rfl
  | cons c text => simp [run, h c rfl]

/-- Of the characters of a run the last ones are given back first. -/
lemma outcome_run_cons (p : Char → Bool) {c : Char} (h : p c = true) (text : List Char) :
    (run p).outcome next (c :: text) =
      ((run p).outcome (fun cs rest => next (c :: cs) rest) text).or (next [] (c :: text)) := by
  simp only [outcome, run, if_pos h, List.findSome?_append, List.findSome?_map]
  rw [List.findSome?_cons]
  cases next [] (c :: text) <;> rfl

/-- A run gives its last character back where nothing gets through otherwise. -/
lemma outcome_run_back {next : List Char → List Char → Option γ} {p : Char → Bool} {u : List Char}
    (hu : ∀ c ∈ u, p c = true) {d : Char} (hd : p d = true) {rest : List Char}
    (hrest : ∀ c ∈ rest.head?, p c = false) (hstop : next (u ++ [d]) rest = none) {e : γ}
    (hn : next u (d :: rest) = some e) : (run p).outcome next (u ++ d :: rest) = some e := by
  induction u generalizing next with
  | nil =>
    rw [List.nil_append, outcome_run_cons _ _ hd, outcome_run_stop _ _ hrest]
    rw [List.nil_append] at hstop
    rw [hstop, hn]
    rfl
  | cons c u ih =>
    rw [List.forall_mem_cons] at hu
    rw [List.cons_append, outcome_run_cons _ _ hu.1]
    have h : (run p).outcome (fun cs rest => next (c :: cs) rest) (u ++ d :: rest) = some e :=
      ih hu.2 hstop hn
    rw [h]
    rfl

end

section

variable (next : Unit → List Char → Option γ)

/-- A single blank is read as one piece where no white space follows it. -/
@[simp] lemma outcome_blanks_cons {text : List Char} (h : Solid text) :
    blanks.outcome next (' ' :: text) = next () text := by
  simp only [blanks, run1, outcome_map, outcome_bind, outcome_char_cons, isSpace_blank, if_true, outcome_pure]
  exact outcome_run_stop _ isSpace h

@[simp] lemma outcome_blanks_of_solid {text : List Char} (h : Solid text) :
    blanks.outcome next text = none := by
  apply outcome_eq_none
  cases text with
  | nil => rfl
  | cons c text =>
    have hc : isSpace c = false := h c rfl
    simp [blanks, run1, char, hc, bind, Functor.map]

end

/-! Texts between quotes. -/

section

variable (next : List Char → List Char → Option γ) {content : List Char}

lemma outcome_quoted (h : '"' ∉ content) (text : List Char) :
    quoted.outcome next ('"' :: (content ++ '"' :: text)) = next content text := by
  have hc : ∀ c ∈ content, decide (c ≠ '"') = true := by
    intro c hm
    rw [decide_eq_true_eq]
    rintro rfl
    exact h hm
  simp only [quoted, outcome_bind, outcome_literal_cons_cons, if_true, outcome_literal_nil]
  rw [outcome_span_append _ _ hc (by simp)]
  simp

lemma outcome_quotedNonempty (h : '"' ∉ content) (hne : content ≠ []) (text : List Char) :
    quotedNonempty.outcome next ('"' :: (content ++ '"' :: text)) = next content text := by
  cases content with
  | nil => exact absurd rfl hne
  | cons c content =>
    have hc : ∀ d ∈ content, decide (d ≠ '"') = true := by
      intro d hm
      rw [decide_eq_true_eq]
      rintro rfl
      exact h (List.mem_cons_of_mem c hm)
    have hd : ¬c = '"' := fun he => h (he ▸ List.mem_cons_self)
    simp only [quotedNonempty, span1, outcome_bind, outcome_literal_cons_cons, if_true, outcome_literal_nil,
      List.cons_append, outcome_char_cons]
    rw [if_pos (by simpa using hd), outcome_span_append _ _ hc (by simp)]
    simp

lemma outcome_snd_withText (r : Reader α) (text : List Char) :
    (Prod.snd <$> withText r).outcome next text =
      r.outcome (fun _ rest => next (text.take (text.length - rest.length)) rest) text := by
  rw [outcome_map]
  simp only [outcome, withText, List.findSome?_map]
  rfl

end

end Reader

end ProseSchema
