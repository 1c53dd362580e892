import ProseSchema.Path
import ProseSchema.Proofs.Numerals
import ProseSchema.Proofs.RoleReading
import ProseSchema.Proofs.TakenText

/-!
# Texts of paths

Each step of a path is written in a form of its own. A text is read as some steps just where it is `$` and the
steps as they are written, one behind the other, and so it is never read in two ways.
-/

namespace ProseSchema

namespace Reader

variable {α γ : Type}

lemma outcome_upTo_succ (r : Reader α) (next : List α → List Char → Option γ) (text : List Char) (count : Nat) :
    (upTo r (count + 1)).outcome next text =
      (r.outcome (fun first rest =>
        (upTo r count).outcome (fun others rest => next (first :: others) rest) rest) text).or (next [] text) := by
  simp only [upTo, outcome_orElse, outcome_bind, outcome_map, outcome_pure]

/-- Where the reader cannot read anything, it is not read at all. -/
lemma outcome_upTo_of_none (r : Reader α) (next : List α → List Char → Option γ) {text : List Char}
    (h : ∀ {δ : Type} (next : α → List Char → Option δ), r.outcome next text = none) (count : Nat) :
    (upTo r count).outcome next text = next [] text := by
  cases count with
  | zero => exact outcome_pure next text []
  | succ count => rw [outcome_upTo_succ, h, Option.none_or]

/-- Values that are written one behind the other are all read, where what comes next cannot go on from the start
of another one. -/
lemma outcome_upTo_flatten {r : Reader α} {form : α → List Char → Prop} {good : List Char → Prop}
    (hr : ∀ {a u rest}, form a u → good rest → ∀ next : α → List Char → Option γ,
      r.outcome next (u ++ rest) = next a rest)
    (hg : ∀ {a u rest}, form a u → good (u ++ rest)) {values : List α} {us : List (List Char)}
    (h : List.Forall₂ form values us) {rest : List Char} (hrest : good rest)
    (hend : ∀ next : α → List Char → Option γ, r.outcome next rest = none)
    {next : List α → List Char → Option γ} (hn : ∀ {a u rest} others, form a u → next others (u ++ rest) = none)
    {count : Nat} (hc : values.length ≤ count) :
    (upTo r count).outcome next (us.flatten ++ rest) = next values rest := by
  induction h generalizing count next with
  | nil =>
    cases count with
    | zero => exact outcome_pure next rest []
    | succ count => rw [List.flatten_nil, List.nil_append, outcome_upTo_succ, hend, Option.none_or]
  | @cons a u values us hu hs ih =>
    obtain ⟨count, rfl⟩ : ∃ n, count = n + 1 := ⟨count - 1, by simp only [List.length_cons] at hc; omega⟩
    have hgood : good (us.flatten ++ rest) := by
      cases hs with
      | nil => exact hrest
      | cons hv _ =>
        rw [List.flatten_cons, List.append_assoc]
        exact hg hv
    rw [List.flatten_cons, List.append_assoc, outcome_upTo_succ, hn [] hu, Option.or_none, hr hu hgood]
    exact ih (fun others hv => hn (a :: others) hv) (Nat.le_of_succ_le_succ hc)

end Reader

namespace PathStep

open Reader
open Literal (IsDigits)

/-- A letter, and characters of names behind it. -/
def IsFieldName (text : List Char) : Prop :=
  ∃ first others, text = first :: others ∧ isNameStart first = true ∧ ∀ c ∈ others, isNameChar c = true

/-- Digits, with a minus sign in front or without. -/
def IsSigned (text : List Char) : Prop :=
  IsDigits text ∨ ∃ digits, IsDigits digits ∧ text = '-' :: digits

/-- A further number of a list of indices, with the comma and the plain spaces in front of it. -/
def IsNextIndex (digits text : List Char) : Prop :=
  IsDigits digits ∧ ∃ blanks, (∀ c ∈ blanks, c = ' ') ∧ text = ',' :: (blanks ++ digits)

/-- What stands in front of a dotted name. -/
def separator (deep : Bool) : List Char :=
  if deep then ['.', '.'] else ['.']

/-- The step as it is written in a path. -/
inductive WrittenAs : PathStep → List Char → Prop
  | field (deep : Bool) {name : List Char} : IsFieldName name →
      WrittenAs (.field deep name) (separator deep ++ name)
  | anyField (deep : Bool) : WrittenAs (.anyField deep) (separator deep ++ ['*'])
  | bracketField {name : List Char} : IsFieldName name →
      WrittenAs (.bracketField name) ('[' :: '\'' :: (name ++ ['\'', ']']))
  | indices {first : List Char} {others texts : List (List Char)} : IsDigits first →
      List.Forall₂ IsNextIndex others texts →
      WrittenAs (.indices first others) ('[' :: (first ++ (texts.flatten ++ [']'])))
  | anyIndex : WrittenAs .anyIndex ['[', '*', ']']
  | slice {first last : Option (List Char)} : (∀ number ∈ first, IsSigned number) →
      (∀ number ∈ last, IsSigned number) →
      WrittenAs (.slice first last) ('[' :: (first.getD [] ++ ':' :: (last.getD [] ++ [']'])))

/-! What is read is written there. -/

lemma mem_name {text : List Char} {way : List Char × List Char} (h : way ∈ name text) :
    IsFieldName way.1 ∧ text = way.1 ++ way.2 := by
  obtain ⟨first, hfirst, h⟩ := mem_bind.mp h
  obtain ⟨others, hothers, h⟩ := mem_bind.mp h
  obtain rfl := List.mem_singleton.mp h
  obtain ⟨hc, ht⟩ := mem_char hfirst
  obtain ⟨ht', hall⟩ := mem_span hothers
  exact ⟨⟨_, _, rfl, hc, hall⟩, by rw [ht, ht', List.cons_append]⟩

lemma mem_digits {text : List Char} {way : List Char × List Char} (h : way ∈ digits text) :
    IsDigits way.1 ∧ text = way.1 ++ way.2 :=
  ⟨⟨(mem_span1 h).2, (mem_span (mem_span_of_mem_span1 h)).2⟩, (mem_span1 h).1⟩

lemma mem_signedDigits {text : List Char} {way : List Char × List Char} (h : way ∈ signedDigits text) :
    IsSigned way.1 ∧ text = way.1 ++ way.2 := by
  obtain ⟨sign, hsign, h⟩ := mem_bind.mp h
  obtain ⟨number, hnumber, h⟩ := mem_bind.mp h
  obtain rfl := List.mem_singleton.mp h
  obtain ⟨hd, ht⟩ := mem_digits hnumber
  rcases mem_optional.mp hsign with ⟨minus, hminus, rfl⟩ | rfl
  · exact ⟨.inr ⟨_, hd, rfl⟩, by rw [mem_literal hminus, ht]; rfl⟩
  · exact ⟨.inl hd, ht⟩

lemma mem_optional_signedDigits {text : List Char} {way : Option (List Char) × List Char}
    (h : way ∈ optional signedDigits text) :
    (∀ number ∈ way.1, IsSigned number) ∧ text = way.1.getD [] ++ way.2 := by
  rcases mem_optional.mp h with ⟨number, hnumber, rfl⟩ | rfl
  · obtain ⟨hs, ht⟩ := mem_signedDigits hnumber
    exact ⟨by simpa using hs, ht⟩
  · exact ⟨by simp, rfl⟩

lemma mem_nextIndex {text : List Char} {way : List Char × List Char} (h : way ∈ nextIndex text) :
    ∃ u, IsNextIndex way.1 u ∧ text = u ++ way.2 := by
  obtain ⟨comma, hcomma, h⟩ := mem_bind.mp h
  obtain ⟨blank, hblank, h⟩ := mem_bind.mp h
  obtain ⟨ht, hb⟩ := mem_span hblank
  obtain ⟨hd, ht'⟩ := mem_digits h
  refine ⟨_, ⟨hd, blank.1, by simpa using hb, rfl⟩, ?_⟩
  rw [mem_literal hcomma, ht, ht']
  simp

lemma mem_dots {text : List Char} {way : Bool × List Char} (h : way ∈ dots text) :
    text = separator way.1 ++ way.2 := by
  obtain ⟨first, hfirst, h⟩ := mem_bind.mp h
  obtain ⟨second, hsecond, h⟩ := mem_bind.mp h
  obtain rfl := List.mem_singleton.mp h
  rcases mem_optional.mp hsecond with ⟨other, hother, rfl⟩ | rfl
  · rw [mem_literal hfirst, mem_literal hother]
    rfl
  · exact mem_literal hfirst

lemma mem_dotted {text : List Char} {way : PathStep × List Char} (h : way ∈ dotted text) :
    ∃ u, way.1.WrittenAs u ∧ text = u ++ way.2 := by
  obtain ⟨deep, hdeep, h⟩ := mem_bind.mp h
  obtain ⟨r, hr, h⟩ := mem_firstOf.mp h
  rcases List.mem_pair.mp hr with rfl | rfl
  · obtain ⟨name, hname, h⟩ := mem_bind.mp h
    obtain rfl := List.mem_singleton.mp h
    obtain ⟨hn, ht⟩ := mem_name hname
    exact ⟨_, .field deep.1 hn, by rw [mem_dots hdeep, ht, List.append_assoc]⟩
  · obtain ⟨hstep, ht⟩ := mem_keyword h
    rw [hstep]
    exact ⟨_, .anyField deep.1, by rw [mem_dots hdeep, ht, List.append_assoc]; rfl⟩

lemma mem_bracketedName {text : List Char} {way : PathStep × List Char} (h : way ∈ bracketedName text) :
    ∃ u, way.1.WrittenAs u ∧ text = u ++ way.2 := by
  obtain ⟨opened, hopened, h⟩ := mem_bind.mp h
  obtain ⟨name, hname, h⟩ := mem_bind.mp h
  obtain ⟨closed, hclosed, h⟩ := mem_bind.mp h
  obtain rfl := List.mem_singleton.mp h
  obtain ⟨hn, ht⟩ := mem_name hname
  refine ⟨_, .bracketField hn, ?_⟩
  rw [mem_literal hopened, ht, mem_literal hclosed]
  simp

lemma mem_bracketedIndex {text : List Char} {way : PathStep × List Char} (h : way ∈ bracketedIndex text) :
    ∃ u, way.1.WrittenAs u ∧ text = u ++ way.2 := by
  obtain ⟨opened, hopened, h⟩ := mem_bind.mp h
  obtain ⟨step, hstep, h⟩ := mem_bind.mp h
  obtain ⟨closed, hclosed, h⟩ := mem_bind.mp h
  obtain rfl := List.mem_singleton.mp h
  obtain ⟨r, hr, hstep⟩ := mem_firstOf.mp hstep
  have ho := mem_literal hopened
  have hc := mem_literal hclosed
  simp only [List.mem_cons, List.not_mem_nil, or_false] at hr
  rcases hr with rfl | rfl | rfl
  · obtain ⟨first, hfirst, h⟩ := mem_bind.mp hstep
    obtain ⟨others, hothers, h⟩ := mem_bind.mp h
    obtain rfl := List.mem_singleton.mp h
    obtain ⟨hd, ht⟩ := mem_digits hfirst
    have hothers : others ∈ upTo nextIndex first.2.length first.2 := hothers
    obtain ⟨texts, hn, ht'⟩ := exists_texts_of_mem_upTo IsNextIndex (fun _ _ => mem_nextIndex) hothers
    refine ⟨_, .indices hd hn, ?_⟩
    rw [ho, ht, ht', hc]
    simp
  · obtain ⟨hs, ht⟩ := mem_keyword hstep
    rw [hs]
    exact ⟨_, .anyIndex, by rw [ho, ht, hc]; rfl⟩
  · obtain ⟨first, hfirst, h⟩ := mem_bind.mp hstep
    obtain ⟨colon, hcolon, h⟩ := mem_bind.mp h
    obtain ⟨last, hlast, h⟩ := mem_bind.mp h
    obtain rfl := List.mem_singleton.mp h
    obtain ⟨hf, ht⟩ := mem_optional_signedDigits hfirst
    obtain ⟨hl, ht'⟩ := mem_optional_signedDigits hlast
    refine ⟨_, .slice hf hl, ?_⟩
    rw [ho, ht, mem_literal hcolon, ht', hc]
    simp

lemma mem_step {text : List Char} {way : PathStep × List Char} (h : way ∈ step text) :
    ∃ u, way.1.WrittenAs u ∧ text = u ++ way.2 := by
  obtain ⟨r, hr, h⟩ := mem_firstOf.mp h
  simp only [List.mem_cons, List.not_mem_nil, or_false] at hr
  rcases hr with rfl | rfl | rfl
  · exact mem_dotted h
  · exact mem_bracketedName h
  · exact mem_bracketedIndex h

/-! What is written is read. -/

lemma ne_of_class {p : Char → Bool} {c d : Char} (hc : p c = true) (hd : p d = false) : c ≠ d :=
  ne_of_apply_ne p (by rw [hc, hd]; decide)

lemma exists_cons_of_isDigits {text : List Char} (h : IsDigits text) : ∃ c v, text = c :: v ∧ c.isDigit = true := by
  obtain ⟨c, v, rfl⟩ := List.exists_cons_of_ne_nil h.1
  exact ⟨c, v, rfl, h.2 c List.mem_cons_self⟩

/-- The characters of paths that stand in no name. -/
def signs : List Char :=
  ['.', '[', '\'', '*', ':', ',']

lemma isNameChar_of_mem_signs {c : Char} (h : c ∈ signs) : isNameChar c = false := by
  have hall : signs.all (!isNameChar ·) = true := by decide +kernel
  simpa using List.all_eq_true.mp hall c h

lemma isNameStart_of_mem_signs {c : Char} (h : c ∈ signs) : isNameStart c = false := by
  have hn := isNameChar_of_mem_signs h
  cases hs : isNameStart c with
  | false => rfl
  | true => simp [isNameChar, hs] at hn

lemma WrittenAs.exists_cons {step : PathStep} {u : List Char} (h : step.WrittenAs u) :
    ∃ c v, u = c :: v ∧ (c = '.' ∨ c = '[') := by
  cases h with
  | field deep _ => cases deep <;> exact ⟨_, _, rfl, .inl rfl⟩
  | anyField deep => cases deep <;> exact ⟨_, _, rfl, .inl rfl⟩
  | _ => exact ⟨_, _, rfl, .inr rfl⟩

lemma WrittenAs.ne_nil {step : PathStep} {u : List Char} (h : step.WrittenAs u) : u ≠ [] := by
  obtain ⟨c, v, rfl, _⟩ := h.exists_cons
  exact List.cons_ne_nil c v

/-- A name does not go on into the next step. -/
lemma WrittenAs.endsName {step : PathStep} {u : List Char} (h : step.WrittenAs u) (rest : List Char) :
    ∀ c ∈ (u ++ rest).head?, isNameChar c = false := by
  obtain ⟨c, v, rfl, hc⟩ := h.exists_cons
  have hm : c ∈ signs := by rcases hc with rfl | rfl <;> decide
  simpa using isNameChar_of_mem_signs hm

lemma IsNextIndex.exists_cons {number u : List Char} (h : IsNextIndex number u) : ∃ v, u = ',' :: v := by
  obtain ⟨_, blanks, _, rfl⟩ := h
  exact ⟨_, rfl⟩

/-- Behind the first number of a list of indices stands a comma or the closing bracket. -/
lemma exists_cons_of_nextIndices {others texts : List (List Char)} (h : List.Forall₂ IsNextIndex others texts)
    (rest : List Char) : ∃ c v, texts.flatten ++ ']' :: rest = c :: v ∧ (c = ',' ∨ c = ']') := by
  cases h with
  | nil => exact ⟨_, _, rfl, .inr rfl⟩
  | cons hu _ =>
    obtain ⟨v, rfl⟩ := hu.exists_cons
    exact ⟨_, _, rfl, .inl rfl⟩

section

variable {γ : Type}

lemma outcome_name {field rest : List Char} (hn : IsFieldName field) (hr : ∀ c ∈ rest.head?, isNameChar c = false)
    (next : List Char → List Char → Option γ) : name.outcome next (field ++ rest) = next field rest := by
  obtain ⟨first, others, rfl, hf, ho⟩ := hn
  rw [name, outcome_bind, List.cons_append, outcome_char_cons, if_pos hf, outcome_bind,
    outcome_span_append _ _ ho hr, outcome_pure]

lemma outcome_digits {number rest : List Char} (hd : IsDigits number) (hr : ∀ c ∈ rest.head?, c.isDigit = false)
    (next : List Char → List Char → Option γ) : digits.outcome next (number ++ rest) = next number rest := by
  obtain ⟨hne, hd⟩ := hd
  obtain ⟨first, others, rfl⟩ := List.exists_cons_of_ne_nil hne
  rw [List.forall_mem_cons] at hd
  rw [digits, span1, outcome_bind, List.cons_append, outcome_char_cons, if_pos hd.1, outcome_bind,
    outcome_span_append _ _ hd.2 hr, outcome_pure]

lemma outcome_digits_of_ne {c : Char} (hc : c.isDigit = false) (rest : List Char)
    (next : List Char → List Char → Option γ) : digits.outcome next (c :: rest) = none := by
  rw [digits, span1, outcome_bind, outcome_char_cons, if_neg (by simp [hc])]

lemma outcome_nextIndex {number u rest : List Char} (hu : IsNextIndex number u)
    (hr : ∀ c ∈ rest.head?, c.isDigit = false) (next : List Char → List Char → Option γ) :
    nextIndex.outcome next (u ++ rest) = next number rest := by
  obtain ⟨hd, blanks, hb, rfl⟩ := hu
  have hblank : ∀ c ∈ (number ++ rest).head?, decide (c = ' ') = false := by
    obtain ⟨first, others, rfl, hfirst⟩ := exists_cons_of_isDigits hd
    have hne : first ≠ ' ' := ne_of_class hfirst (by decide)
    simpa using hne
  rw [nextIndex, outcome_bind, List.cons_append, outcome_literal_cons_cons, if_pos rfl, outcome_literal_nil,
    outcome_bind, List.append_assoc, outcome_span_append _ _ (by simpa using hb) hblank, outcome_digits hd hr]

/-- A number that may be left out is read in front of a character that no number has. -/
lemma outcome_optional_signedDigits {number : Option (List Char)} (hs : ∀ written ∈ number, IsSigned written) {c : Char}
    (hc : c.isDigit = false) (hm : c ≠ '-') (rest : List Char) {next : Option (List Char) → List Char → Option γ}
    (hn : ∀ d rest, d.isDigit = true ∨ d = '-' → next none (d :: rest) = none) :
    (optional signedDigits).outcome next (number.getD [] ++ c :: rest) = next number (c :: rest) := by
  have hend : ∀ d ∈ (c :: rest).head?, d.isDigit = false := by simpa using hc
  simp only [outcome_optional, signedDigits, outcome_bind, outcome_pure]
  cases number with
  | none =>
    rw [Option.getD_none, List.nil_append, outcome_literal_cons_cons, if_neg (Ne.symm hm), outcome_digits_of_ne hc]
    rfl
  | some written =>
    rcases hs written rfl with hd | ⟨digits, hd, rfl⟩
    · obtain ⟨first, others, rfl, hfirst⟩ := exists_cons_of_isDigits hd
      have hne : '-' ≠ first := Ne.symm (ne_of_class hfirst (by decide))
      rw [Option.getD_some, outcome_digits hd hend, List.cons_append, outcome_literal_cons_cons, if_neg hne,
        hn _ _ (.inl hfirst), Option.none_or, Option.or_none]
      rfl
    · rw [Option.getD_some, List.cons_append, outcome_literal_cons_cons, if_pos rfl, outcome_literal_nil,
        outcome_digits hd hend, outcome_digits_of_ne (by decide), hn _ _ (.inr rfl), Option.or_none, Option.or_none]
      rfl

lemma outcome_dots (deep : Bool) {c : Char} (hc : c ≠ '.') (rest : List Char) {next : Bool → List Char → Option γ}
    (hn : ∀ rest, next false ('.' :: rest) = none) :
    dots.outcome next (separator deep ++ c :: rest) = next deep (c :: rest) := by
  simp only [dots, outcome_bind, outcome_optional, outcome_pure]
  cases deep with
  | false => simp [separator, Ne.symm hc]
  | true => simp [separator, hn]

/-! One step, and nothing of what stands behind it. -/

/-- The name of a field, or a star for any field. -/
def target (deep : Bool) : Reader PathStep :=
  firstOf [field deep <$> name, keyword "*" (anyField deep)]

lemma outcome_target_of_dot (deep : Bool) (rest : List Char) (next : PathStep → List Char → Option γ) :
    (target deep).outcome next ('.' :: rest) = none := by
  have hdot : isNameStart '.' = false := isNameStart_of_mem_signs (by decide)
  simp [target, name, keyword, hdot]

lemma outcome_dotted (deep : Bool) {c : Char} (hc : c ≠ '.') (rest : List Char)
    (next : PathStep → List Char → Option γ) :
    dotted.outcome next (separator deep ++ c :: rest) = (target deep).outcome next (c :: rest) := by
  have hd : dotted = dots >>= target := rfl
  rw [hd, outcome_bind, outcome_dots deep hc]
  exact fun rest => outcome_target_of_dot false rest next

lemma outcome_target_name (deep : Bool) {written rest : List Char} (hn : IsFieldName written)
    (hr : ∀ c ∈ rest.head?, isNameChar c = false) (next : PathStep → List Char → Option γ) :
    (target deep).outcome next (written ++ rest) = next (.field deep written) rest := by
  have hstar : ¬chars "*" <+: written ++ rest := by
    obtain ⟨first, others, rfl, hf, -⟩ := hn
    have hne : first ≠ '*' := ne_of_class hf (isNameStart_of_mem_signs (by decide))
    simp [Ne.symm hne]
  rw [target, outcome_firstOf_cons, outcome_firstOf_cons, outcome_firstOf_nil, outcome_map, outcome_name hn hr,
    outcome_keyword_of_not_starting hstar, Option.or_none, Option.or_none]

lemma outcome_target_star (deep : Bool) (rest : List Char) (next : PathStep → List Char → Option γ) :
    (target deep).outcome next ('*' :: rest) = next (.anyField deep) rest := by
  have hstar : isNameStart '*' = false := isNameStart_of_mem_signs (by decide)
  simp [target, name, keyword, hstar]

lemma outcome_step_dotted (deep : Bool) {c : Char} (hc : c ≠ '.') (rest : List Char)
    (next : PathStep → List Char → Option γ) :
    step.outcome next (separator deep ++ c :: rest) = (target deep).outcome next (c :: rest) := by
  rw [step, outcome_firstOf_cons, outcome_dotted deep hc]
  cases deep <;> simp [separator, bracketedName, bracketedIndex]

/-- One number or several, between brackets. -/
def numbers : Reader PathStep := do
  let first ← digits
  let others ← many nextIndex
  pure (indices first others)

/-- Two numbers with a colon between them, each of which may be left out. -/
def range : Reader PathStep := do
  let first ← optional signedDigits
  literal [':']
  let last ← optional signedDigits
  pure (slice first last)

/-- What comes next behind the closing bracket. -/
def closing (next : PathStep → List Char → Option γ) (read : PathStep) (text : List Char) : Option γ :=
  (literal [']']).outcome (fun _ rest => next read rest) text

@[simp] lemma closing_bracket (next : PathStep → List Char → Option γ) (read : PathStep) (rest : List Char) :
    closing next read (']' :: rest) = next read rest := by
  simp [closing]

lemma closing_of_ne (next : PathStep → List Char → Option γ) {c : Char} (read : PathStep) (rest : List Char)
    (hc : c ≠ ']') : closing next read (c :: rest) = none := by
  simp [closing, Ne.symm hc]

lemma outcome_step_bracketedIndex {text : List Char} (h : ∀ c ∈ text.head?, c ≠ '\'')
    (next : PathStep → List Char → Option γ) : step.outcome next ('[' :: text) =
      (firstOf [numbers, keyword "*" anyIndex, range]).outcome (closing next) text := by
  have hi : bracketedIndex = literal ['['] >>= fun _ => firstOf [numbers, keyword "*" anyIndex, range] >>=
      fun step => literal [']'] >>= fun _ => pure step := rfl
  have hc : closing next = fun read text => (literal [']']).outcome (fun _ rest => next read rest) text := rfl
  have hname : bracketedName.outcome next ('[' :: text) = none := by
    cases text with
    | nil => simp [bracketedName]
    | cons c text => simp [bracketedName, Ne.symm (h c rfl)]
  rw [step, outcome_firstOf_cons, outcome_firstOf_cons, outcome_firstOf_cons, outcome_firstOf_nil, hname, hi, hc]
  simp [dotted, dots]

lemma outcome_many_nextIndex {others texts : List (List Char)} (h : List.Forall₂ IsNextIndex others texts)
    (rest : List Char) {next : List (List Char) → List Char → Option γ}
    (hn : ∀ others rest, next others (',' :: rest) = none) :
    (many nextIndex).outcome next (texts.flatten ++ ']' :: rest) = next others (']' :: rest) := by
  have hclosed (next : List Char → List Char → Option γ) : nextIndex.outcome next (']' :: rest) = none := by
    simp [nextIndex]
  refine outcome_upTo_flatten outcome_nextIndex ?_ h (by simp) hclosed ?_ ?_
  · intro a u rest hu
    obtain ⟨v, rfl⟩ := hu.exists_cons
    simp
  · intro a u rest others hu
    obtain ⟨v, rfl⟩ := hu.exists_cons
    exact hn others _
  · rw [List.length_append]
    refine Nat.le_add_right_of_le (length_le_flatten (fun {a u} hu => ?_) h)
    obtain ⟨v, rfl⟩ := hu.exists_cons
    exact List.cons_ne_nil _ _

section

variable {next : PathStep → List Char → Option γ} (hn : ∀ {c} step rest, c ≠ ']' → next step (c :: rest) = none)

include hn

lemma outcome_numbers {first : List Char} {others texts : List (List Char)} (hd : IsDigits first)
    (h : List.Forall₂ IsNextIndex others texts) (rest : List Char) :
    numbers.outcome next (first ++ (texts.flatten ++ ']' :: rest)) = next (.indices first others) (']' :: rest) := by
  have hend : ∀ c ∈ (texts.flatten ++ ']' :: rest).head?, c.isDigit = false := by
    obtain ⟨c, v, hv, hc⟩ := exists_cons_of_nextIndices h rest
    rw [hv]
    rcases hc with rfl | rfl <;> simp
  simp only [numbers, outcome_bind, outcome_pure]
  rw [outcome_digits hd hend, outcome_many_nextIndex h]
  exact fun others rest => hn _ rest (by decide)

lemma outcome_range {first last : Option (List Char)} (hf : ∀ number ∈ first, IsSigned number)
    (hl : ∀ number ∈ last, IsSigned number) (rest : List Char) :
    range.outcome next (first.getD [] ++ ':' :: (last.getD [] ++ ']' :: rest)) =
      next (.slice first last) (']' :: rest) := by
  simp only [range, outcome_bind, outcome_pure]
  rw [outcome_optional_signedDigits hf (by decide) (by decide), outcome_literal_cons_cons, if_pos rfl,
    outcome_literal_nil, outcome_optional_signedDigits hl (by decide) (by decide)]
  · intro d rest hd
    refine hn _ rest ?_
    rintro rfl
    exact absurd hd (by decide)
  · intro d rest hd
    have hne : ':' ≠ d := by
      rintro rfl
      exact absurd hd (by decide)
    rw [outcome_literal_cons_cons, if_neg hne]

/-- Where a colon stands behind the first number, no list of numbers is read. -/
lemma outcome_numbers_of_colon {number : Option (List Char)} (hs : ∀ written ∈ number, IsSigned written)
    (rest : List Char) : numbers.outcome next (number.getD [] ++ ':' :: rest) = none := by
  have hcolon {δ : Type} (next : List Char → List Char → Option δ) : nextIndex.outcome next (':' :: rest) = none := by
    simp [nextIndex]
  have hmany (first : List Char) : (many nextIndex).outcome (fun others rest => next (.indices first others) rest)
      (':' :: rest) = none := by
    have hs := outcome_upTo_of_none nextIndex (fun others rest => next (.indices first others) rest) hcolon
      (':' :: rest).length
    exact hs.trans (hn _ rest (by decide))
  simp only [numbers, outcome_bind, outcome_pure]
  cases number with
  | none => exact outcome_digits_of_ne (by decide) rest _
  | some written =>
    rcases hs written rfl with hd | ⟨digits, _, rfl⟩
    · rw [Option.getD_some, outcome_digits hd (by simp), hmany]
    · exact outcome_digits_of_ne (by decide) _ _

end

/-- Where no colon stands behind the first number, no range is read. -/
lemma outcome_range_of_ne {number : Option (List Char)} (hs : ∀ written ∈ number, IsSigned written) {c : Char}
    (hc : c.isDigit = false) (hm : c ≠ '-') (hcolon : c ≠ ':') (rest : List Char)
    (next : PathStep → List Char → Option γ) : range.outcome next (number.getD [] ++ c :: rest) = none := by
  simp only [range, outcome_bind, outcome_pure]
  rw [outcome_optional_signedDigits hs hc hm, outcome_literal_cons_cons, if_neg (Ne.symm hcolon)]
  intro d rest hd
  have hne : ':' ≠ d := by
    rintro rfl
    exact absurd hd (by decide)
  rw [outcome_literal_cons_cons, if_neg hne]

/-- The first character of a number with a colon behind it, or of the colon alone. -/
lemma exists_cons_of_signed {number : Option (List Char)} (hs : ∀ written ∈ number, IsSigned written)
    (rest : List Char) :
    ∃ c v, number.getD [] ++ ':' :: rest = c :: v ∧ (c.isDigit = true ∨ c = '-' ∨ c = ':') := by
  cases number with
  | none => exact ⟨_, _, rfl, .inr (.inr rfl)⟩
  | some written =>
    rcases hs written rfl with hd | ⟨digits, _, rfl⟩
    · obtain ⟨c, v, rfl, hc⟩ := exists_cons_of_isDigits hd
      exact ⟨_, _, rfl, .inl hc⟩
    · exact ⟨_, _, rfl, .inr (.inl rfl)⟩

lemma outcome_step_bracketField {field : List Char} (hn : IsFieldName field) (rest : List Char)
    (next : PathStep → List Char → Option γ) :
    step.outcome next ('[' :: '\'' :: (field ++ '\'' :: ']' :: rest)) = next (.bracketField field) rest := by
  have hquote : isNameChar '\'' = false := isNameChar_of_mem_signs (by decide)
  have hend : ∀ c ∈ ('\'' :: ']' :: rest).head?, isNameChar c = false := by simpa using hquote
  have hname : bracketedName.outcome next ('[' :: '\'' :: (field ++ '\'' :: ']' :: rest)) =
      next (.bracketField field) rest := by
    simp [bracketedName, outcome_name hn hend]
  have hdotted : dotted.outcome next ('[' :: '\'' :: (field ++ '\'' :: ']' :: rest)) = none := by
    simp [dotted, dots]
  have hindex : bracketedIndex.outcome next ('[' :: '\'' :: (field ++ '\'' :: ']' :: rest)) = none := by
    simp [bracketedIndex, signedDigits, digits, span1, keyword]
  rw [step, outcome_firstOf_cons, outcome_firstOf_cons, outcome_firstOf_cons, outcome_firstOf_nil, hdotted,
    hname, hindex, Option.none_or, Option.or_none, Option.or_none]

lemma outcome_anyIndex_of_ne {c : Char} (hc : c ≠ '*') (v : List Char) (next : PathStep → List Char → Option γ) :
    (keyword "*" anyIndex).outcome next (c :: v) = none :=
  outcome_keyword_of_not_starting (by simp [Ne.symm hc])

/-- A list of indices is neither a star nor a range. -/
lemma outcome_step_indices {first : List Char} {others texts : List (List Char)} (hd : IsDigits first)
    (hs : List.Forall₂ IsNextIndex others texts) (rest : List Char) (next : PathStep → List Char → Option γ) :
    step.outcome next ('[' :: (first ++ (texts.flatten ++ ']' :: rest))) = next (.indices first others) rest := by
  have hnumbers := outcome_numbers (closing_of_ne next) hd hs rest
  have hsigned : ∀ written ∈ some first, IsSigned written := fun written hw => .inl (Option.some_inj.mp hw ▸ hd)
  have hrange : range.outcome (closing next) (first ++ (texts.flatten ++ ']' :: rest)) = none := by
    obtain ⟨c, v, hv, hc⟩ := exists_cons_of_nextIndices hs rest
    have hne : c.isDigit = false ∧ c ≠ '-' ∧ c ≠ ':' := by rcases hc with rfl | rfl <;> decide
    rw [hv]
    exact outcome_range_of_ne hsigned hne.1 hne.2.1 hne.2.2 v (closing next)
  obtain ⟨d, digits, rfl, hdigit⟩ := exists_cons_of_isDigits hd
  have hquote : d ≠ '\'' := ne_of_class hdigit (by decide)
  have hstar : d ≠ '*' := ne_of_class hdigit (by decide)
  rw [List.cons_append] at hnumbers hrange
  rw [List.cons_append, outcome_step_bracketedIndex (by simpa using hquote), outcome_firstOf_cons,
    outcome_firstOf_cons, outcome_firstOf_cons, outcome_firstOf_nil, hnumbers, outcome_anyIndex_of_ne hstar,
    hrange, closing_bracket, Option.or_none, Option.or_none, Option.or_none]

/-- A range is neither a list of indices nor a star. -/
lemma outcome_step_slice {first last : Option (List Char)} (hf : ∀ number ∈ first, IsSigned number)
    (hl : ∀ number ∈ last, IsSigned number) (rest : List Char) (next : PathStep → List Char → Option γ) :
    step.outcome next ('[' :: (first.getD [] ++ ':' :: (last.getD [] ++ ']' :: rest))) =
      next (.slice first last) rest := by
  have hrange := outcome_range (closing_of_ne next) hf hl rest
  have hnumbers := outcome_numbers_of_colon (closing_of_ne next) hf (last.getD [] ++ ']' :: rest)
  obtain ⟨c, v, hv, hc⟩ := exists_cons_of_signed hf (last.getD [] ++ ']' :: rest)
  have hne : c ≠ '\'' ∧ c ≠ '*' := by
    constructor <;> (rintro rfl; exact absurd hc (by decide))
  rw [hv] at hrange hnumbers
  rw [hv, outcome_step_bracketedIndex (by simpa using hne.1), outcome_firstOf_cons, outcome_firstOf_cons,
    outcome_firstOf_cons, outcome_firstOf_nil, hnumbers, outcome_anyIndex_of_ne hne.2, hrange, closing_bracket,
    Option.none_or, Option.none_or, Option.or_none]

/-- A step is read as it is written, whatever step stands behind it. -/
lemma outcome_step {written : PathStep} {u : List Char} (h : written.WrittenAs u) {rest : List Char}
    (hr : ∀ c ∈ rest.head?, isNameChar c = false) (next : PathStep → List Char → Option γ) :
    step.outcome next (u ++ rest) = next written rest := by
  cases h with
  | field deep hn =>
    have ht := outcome_target_name deep hn hr next
    obtain ⟨first, others, rfl, hf, -⟩ := hn
    have hdot : first ≠ '.' := ne_of_class hf (isNameStart_of_mem_signs (by decide))
    rw [List.append_assoc, List.cons_append, outcome_step_dotted deep hdot]
    exact ht
  | anyField deep =>
    rw [List.append_assoc, List.singleton_append, outcome_step_dotted deep (by decide), outcome_target_star]
  | bracketField hn => simpa using outcome_step_bracketField hn rest next
  | indices hd hs => simpa using outcome_step_indices hd hs rest next
  | anyIndex =>
    rw [List.cons_append, outcome_step_bracketedIndex (by simp)]
    simp [numbers, range, signedDigits, digits, span1, keyword]
  | slice hf hl => simpa using outcome_step_slice hf hl rest next

end

end PathStep

namespace Path

open Reader PathStep

/-- A text is read as some steps just where it is the root and these steps as they are written. -/
theorem parse?_eq_some_iff {text : String} {steps : List PathStep} : parse? text = some steps ↔
    ∃ us, List.Forall₂ WrittenAs steps us ∧ text.toList = '$' :: us.flatten := by
  constructor
  · intro h
    obtain ⟨root, hroot, h⟩ := mem_bind.mp (mem_of_whole? h)
    have h : (steps, []) ∈ upTo step root.2.length root.2 := h
    obtain ⟨us, hus, ht⟩ := exists_texts_of_mem_upTo WrittenAs (fun _ _ => mem_step) h
    exact ⟨us, hus, by rw [mem_literal hroot, ht]; simp⟩
  · rintro ⟨us, hus, ht⟩
    have hnil (next : PathStep → List Char → Option (List PathStep)) : step.outcome next [] = none := rfl
    have hmany : (many step).outcome ended (us.flatten ++ []) = some steps := by
      refine outcome_upTo_flatten (fun hu hr => outcome_step hu hr) (fun hu => hu.endsName _) hus (by simp) hnil ?_ ?_
      · intro a u rest others hu
        obtain ⟨c, v, rfl, _⟩ := hu.exists_cons
        rfl
      · rw [List.append_nil]
        exact length_le_flatten WrittenAs.ne_nil hus
    rw [parse?, whole?_eq_outcome, ht, reader, outcome_bind, outcome_literal_cons_cons, if_pos rfl,
      outcome_literal_nil]
    rwa [List.append_nil] at hmany

end Path

end ProseSchema
