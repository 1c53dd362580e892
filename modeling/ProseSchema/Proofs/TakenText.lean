import Mathlib.Data.List.Forall2
import Mathlib.Data.List.TakeWhile
import Mathlib.Tactic.Lemma
import ProseSchema.Text.Reader
import ProseSchema.Text.Space

/-!
# Text taken by readers

Each way of a reader takes a text and leaves the rest. What holds of the texts taken by the parts of a reader,
and of texts put together, holds of the text that the reader takes. What holds of the values of its last part
holds of its own.
-/

namespace ProseSchema

namespace Reader

variable {α β : Type}

/-- What every way of the reader takes is like this. -/
def Takes (q : List Char → Prop) (r : Reader α) : Prop :=
  ∀ text, ∀ way ∈ r text, ∃ taken, text = taken ++ way.2 ∧ q taken

/-- What holds of texts holds of them put together. -/
class Joins (q : List Char → Prop) : Prop where
  nil : q []
  append {u v : List Char} : q u → q v → q (u ++ v)

instance : Joins fun _ => True :=
  ⟨trivial, fun _ _ => trivial⟩

instance (d : Char) : Joins (d ∉ ·) where
  nil := List.not_mem_nil
  append hu hv := by
    rw [List.mem_append, not_or]
    exact ⟨hu, hv⟩

instance (p : Char → Prop) : Joins (∀ d ∈ ·, p d) where
  nil := List.forall_mem_nil p
  append hu hv := List.forall_mem_append.mpr ⟨hu, hv⟩

lemma mem_bind {r : Reader α} {f : α → Reader β} {text : List Char} {way : β × List Char} :
    way ∈ (r >>= f) text ↔ ∃ first ∈ r text, way ∈ f first.1 first.2 :=
  List.mem_flatMap

/-- A value that may be left out is read, or nothing is taken. -/
lemma mem_optional {r : Reader α} {text : List Char} {way : Option α × List Char} :
    way ∈ optional r text ↔ (∃ read ∈ r text, way = (some read.1, read.2)) ∨ way = (none, text) := by
  refine List.mem_append.trans (or_congr (mem_bind.trans ?_) List.mem_singleton)
  exact exists_congr fun read => and_congr_right fun _ => List.mem_singleton

lemma mem_firstOf {rs : List (Reader α)} {text : List Char} {way : α × List Char} :
    way ∈ firstOf rs text ↔ ∃ r ∈ rs, way ∈ r text := by
  induction rs with
  | nil => simp [firstOf, fail]
  | cons r rs ih =>
    change way ∈ r text ++ firstOf rs text ↔ _
    rw [List.mem_append, ih]
    constructor
    · rintro (h | ⟨q, hq, h⟩)
      · exact ⟨r, List.mem_cons_self, h⟩
      · exact ⟨q, List.mem_cons_of_mem r hq, h⟩
    · rintro ⟨q, hq, h⟩
      rcases List.mem_cons.mp hq with rfl | hq
      · exact .inl h
      · exact .inr ⟨q, hq, h⟩

lemma mem_literal {word text : List Char} {way : Unit × List Char} (h : way ∈ literal word text) :
    text = word ++ way.2 := by
  rw [literal] at h
  split at h
  · next hp =>
    obtain ⟨rest, rfl⟩ := List.isPrefixOf_iff_prefix.mp hp
    obtain rfl := List.mem_singleton.mp h
    simp
  · exact absurd h List.not_mem_nil

lemma mem_literal_append (word rest : List Char) : ((), rest) ∈ literal word (word ++ rest) := by
  simp [literal, List.isPrefixOf_iff_prefix]

lemma mem_keyword {word : String} {a : α} {text : List Char} {way : α × List Char}
    (h : way ∈ keyword word a text) : way.1 = a ∧ text = chars word ++ way.2 := by
  obtain ⟨first, hfirst, h⟩ := mem_bind.mp h
  obtain rfl := List.mem_singleton.mp h
  exact ⟨rfl, mem_literal hfirst⟩

lemma mem_span {p : Char → Bool} {text : List Char} {way : List Char × List Char} (h : way ∈ span p text) :
    text = way.1 ++ way.2 ∧ ∀ c ∈ way.1, p c = true := by
  obtain rfl := List.mem_singleton.mp h
  exact ⟨List.takeWhile_append_dropWhile.symm, fun c hc => List.mem_takeWhile_imp hc⟩

lemma mem_char {p : Char → Bool} {text : List Char} {way : Char × List Char} (h : way ∈ char p text) :
    p way.1 = true ∧ text = way.1 :: way.2 := by
  cases text with
  | nil => exact absurd h List.not_mem_nil
  | cons c text =>
    rw [char] at h
    split at h
    · next hc =>
      obtain rfl := List.mem_singleton.mp h
      exact ⟨hc, rfl⟩
    · exact absurd h List.not_mem_nil

lemma mem_span1 {p : Char → Bool} {text : List Char} {way : List Char × List Char} (h : way ∈ span1 p text) :
    text = way.1 ++ way.2 ∧ way.1 ≠ [] := by
  obtain ⟨first, hfirst, h⟩ := mem_bind.mp h
  obtain ⟨others, hothers, h⟩ := mem_bind.mp h
  obtain rfl := List.mem_singleton.mp h
  refine ⟨?_, List.cons_ne_nil _ _⟩
  rw [(mem_char hfirst).2, (mem_span hothers).1]
  rfl

lemma mem_span_of_mem_span1 {p : Char → Bool} {text : List Char} {way : List Char × List Char}
    (h : way ∈ span1 p text) : way ∈ span p text := by
  obtain ⟨first, hfirst, h⟩ := mem_bind.mp h
  obtain ⟨others, hothers, h⟩ := mem_bind.mp h
  obtain rfl := List.mem_singleton.mp h
  obtain rfl := List.mem_singleton.mp hothers
  obtain ⟨hc, rfl⟩ := mem_char hfirst
  simp [span, hc]

lemma mem_quoted_of_mem_quotedNonempty {text : List Char} {way : List Char × List Char}
    (h : way ∈ quotedNonempty text) : way ∈ quoted text := by
  obtain ⟨opened, hopened, h⟩ := mem_bind.mp h
  obtain ⟨content, hcontent, h⟩ := mem_bind.mp h
  exact mem_bind.mpr ⟨opened, hopened, mem_bind.mpr ⟨content, mem_span_of_mem_span1 hcontent, h⟩⟩

lemma mem_of_whole? {r : Reader α} {text : List Char} {a : α} (h : whole? r text = some a) :
    (a, []) ∈ r text := by
  obtain ⟨way, hw, rfl⟩ := Option.map_eq_some_iff.mp h
  obtain ⟨first, hfirst, hend⟩ := mem_bind.mp (List.mem_of_head? hw)
  obtain ⟨value, rest⟩ := first
  cases rest with
  | nil =>
    obtain rfl := List.mem_singleton.mp hend
    exact hfirst
  | cons c rest => exact absurd hend List.not_mem_nil

/-- What a search finds is read somewhere in the text. -/
lemma exists_of_search? {r : Reader α} {text : List Char} {a : α} (h : search? r text = some a) :
    ∃ before after rest, text = before ++ after ∧ (a, rest) ∈ r after := by
  have hfirst {text : List Char} (h : first? r text = some a) : ∃ rest, (a, rest) ∈ r text := by
    obtain ⟨way, hw, rfl⟩ := Option.map_eq_some_iff.mp h
    exact ⟨way.2, List.mem_of_head? hw⟩
  induction text with
  | nil =>
    obtain ⟨rest, hr⟩ := hfirst h
    exact ⟨[], [], rest, rfl, hr⟩
  | cons c text ih =>
    rcases Option.or_eq_some_iff.mp h with h | ⟨-, h⟩
    · obtain ⟨rest, hr⟩ := hfirst h
      exact ⟨[], c :: text, rest, rfl, hr⟩
    · obtain ⟨before, after, rest, rfl, hr⟩ := ih h
      exact ⟨c :: before, after, rest, rfl, hr⟩

/-- A whole text is read just where some way of the reader leaves nothing over. -/
lemma isSome_whole?_iff {r : Reader α} {text : List Char} :
    (whole? r text).isSome = true ↔ ∃ a, (a, []) ∈ r text := by
  constructor
  · intro h
    obtain ⟨a, ha⟩ := Option.isSome_iff_exists.mp h
    exact ⟨a, mem_of_whole? ha⟩
  · rintro ⟨a, ha⟩
    rw [whole?, first?, Option.isSome_map, List.isSome_head?]
    exact List.ne_nil_of_mem (mem_bind.mpr ⟨(a, []), ha, List.mem_singleton_self _⟩)

/-- Where every value is read from a text of its own, several values are read from several of these texts, one
behind the other. -/
lemma exists_texts_of_mem_upTo {r : Reader α} (form : α → List Char → Prop)
    (hr : ∀ text, ∀ way ∈ r text, ∃ u, form way.1 u ∧ text = u ++ way.2) {count : Nat} {text : List Char}
    {way : List α × List Char} (h : way ∈ upTo r count text) :
    ∃ us, List.Forall₂ form way.1 us ∧ text = us.flatten ++ way.2 := by
  induction count generalizing text way with
  | zero =>
    obtain rfl := List.mem_singleton.mp h
    exact ⟨[], .nil, rfl⟩
  | succ count ih =>
    rcases List.mem_append.mp h with h | h
    · obtain ⟨first, hfirst, h⟩ := mem_bind.mp h
      obtain ⟨others, hothers, h⟩ := mem_bind.mp h
      obtain rfl := List.mem_singleton.mp h
      obtain ⟨u, hu, ht⟩ := hr text first hfirst
      obtain ⟨us, hus, ht'⟩ := ih hothers
      exact ⟨u :: us, .cons hu hus, by rw [ht, ht', List.flatten_cons, List.append_assoc]⟩
    · obtain rfl := List.mem_singleton.mp h
      exact ⟨[], .nil, rfl⟩

/-- Where a value is read from every text of some form, several of these texts are read one behind the other. -/
lemma exists_mem_upTo_of_texts {r : Reader α} {form good : List Char → Prop}
    (hr : ∀ {u rest}, form u → good rest → ∃ a, (a, rest) ∈ r (u ++ rest))
    (hg : ∀ {u rest}, form u → good (u ++ rest)) {rest : List Char} (hrest : good rest) {us : List (List Char)}
    (h : ∀ u ∈ us, form u) {count : Nat} (hc : us.length ≤ count) :
    ∃ values, (values, rest) ∈ upTo r count (us.flatten ++ rest) := by
  induction us generalizing count with
  | nil =>
    refine ⟨[], ?_⟩
    cases count with
    | zero => exact List.mem_singleton_self _
    | succ count => exact List.mem_append_right _ (List.mem_singleton_self _)
  | cons u us ih =>
    obtain ⟨count, rfl⟩ : ∃ n, count = n + 1 := ⟨count - 1, by simp only [List.length_cons] at hc; omega⟩
    rw [List.forall_mem_cons] at h
    obtain ⟨values, hvalues⟩ := ih h.2 (Nat.le_of_succ_le_succ hc)
    have hgood : good (us.flatten ++ rest) := by
      cases us with
      | nil => exact hrest
      | cons v us =>
        rw [List.flatten_cons, List.append_assoc]
        exact hg (h.2 v List.mem_cons_self)
    obtain ⟨a, ha⟩ := hr h.1 hgood
    refine ⟨a :: values, List.mem_append_left _ ?_⟩
    rw [List.flatten_cons, List.append_assoc]
    exact mem_bind.mpr ⟨_, ha, mem_bind.mpr ⟨_, hvalues, List.mem_singleton_self _⟩⟩

/-- No more values are written than there are characters. -/
lemma length_le_flatten {form : α → List Char → Prop} (hne : ∀ {a u}, form a u → u ≠ []) {values : List α}
    {us : List (List Char)} (h : List.Forall₂ form values us) : values.length ≤ us.flatten.length := by
  induction h with
  | nil => exact Nat.le_refl 0
  | cons hu _ ih =>
    have hpos := List.length_pos_of_ne_nil (hne hu)
    simp only [List.length_cons, List.flatten_cons, List.length_append]
    omega

namespace Takes

section

variable {p q s : List Char → Prop}

lemma join {r : Reader α} {f : α → Reader β} (hr : Takes p r) (hf : ∀ a, Takes q (f a))
    (hs : ∀ u v, p u → q v → s (u ++ v)) : Takes s (r >>= f) := by
  intro text way h
  obtain ⟨first, h₁, h₂⟩ := mem_bind.mp h
  obtain ⟨u, hu, hpu⟩ := hr text first h₁
  obtain ⟨v, hv, hqv⟩ := hf first.1 first.2 way h₂
  refine ⟨u ++ v, ?_, hs u v hpu hqv⟩
  rw [List.append_assoc, ← hv, ← hu]

lemma orElse {r t : Reader α} (hr : Takes q r) (ht : Takes q t) : Takes q (Reader.orElse r t) := by
  intro text way h
  rcases List.mem_append.mp h with h | h
  · exact hr text way h
  · exact ht text way h

lemma firstOf {rs : List (Reader α)} (h : ∀ r ∈ rs, Takes q r) : Takes q (Reader.firstOf rs) := by
  induction rs with
  | nil =>
    intro text way hw
    exact absurd hw (by simp [Reader.firstOf, fail])
  | cons r rs ih =>
    rw [List.forall_mem_cons] at h
    exact h.1.orElse (ih h.2)

lemma literal {word : List Char} (h : q word) : Takes q (Reader.literal word) := by
  intro text way hw
  rw [Reader.literal] at hw
  split at hw
  · next hp =>
    obtain ⟨rest, rfl⟩ := List.isPrefixOf_iff_prefix.mp hp
    obtain rfl := List.mem_singleton.mp hw
    exact ⟨word, by simp, h⟩
  · exact absurd hw (by simp)

lemma char {c : Char → Bool} (h : ∀ d, c d = true → q [d]) : Takes q (Reader.char c) := by
  intro text way hw
  cases text with
  | nil => exact absurd hw (by simp [Reader.char])
  | cons d text =>
    rw [Reader.char] at hw
    split at hw
    · next hc =>
      obtain rfl := List.mem_singleton.mp hw
      exact ⟨[d], rfl, h d hc⟩
    · exact absurd hw (by simp)

lemma withText {r : Reader α} (hr : Takes q r) : Takes q (Reader.withText r) := by
  intro text way hw
  obtain ⟨way', hw', rfl⟩ := List.mem_map.mp hw
  exact hr text way' hw'

lemma map {r : Reader α} (hr : Takes q r) (f : α → β) : Takes q (f <$> r) := by
  intro text way hw
  obtain ⟨first, hfirst, hw⟩ := mem_bind.mp hw
  obtain rfl := List.mem_singleton.mp hw
  exact hr text first hfirst

lemma bind_pure {r : Reader α} (hr : Takes q r) (f : α → β) : Takes q (r >>= fun a => Pure.pure (f a)) :=
  hr.map f

lemma keyword {word : String} (h : q (chars word)) (a : α) : Takes q (Reader.keyword word a) :=
  (literal h).map fun _ => a

lemma and {r : Reader α} (hp : Takes p r) (hq : Takes q r) : Takes (fun u => p u ∧ q u) r := by
  intro text way hw
  obtain ⟨u, ht, hu⟩ := hp text way hw
  obtain ⟨v, he, hv⟩ := hq text way hw
  obtain rfl : u = v := List.append_cancel_right (ht.symm.trans he)
  exact ⟨u, ht, hu, hv⟩

end

section

variable {q : List Char → Prop} [Joins q]

lemma pure (a : α) : Takes q (Pure.pure a : Reader α) := by
  intro text way h
  obtain rfl := List.mem_singleton.mp h
  exact ⟨[], rfl, Joins.nil⟩

lemma bind {r : Reader α} {f : α → Reader β} (hr : Takes q r) (hf : ∀ a, Takes q (f a)) : Takes q (r >>= f) :=
  hr.join hf fun _ _ => Joins.append

lemma optional {r : Reader α} (hr : Takes q r) : Takes q (Reader.optional r) :=
  (hr.map some).orElse (pure none)

lemma run {c : Char → Bool} (h : ∀ d, c d = true → q [d]) : Takes q (Reader.run c) := by
  intro text
  induction text with
  | nil => exact pure [] []
  | cons d text ih =>
    intro way hw
    rw [Reader.run] at hw
    split at hw
    · next hd =>
      rcases List.mem_append.mp hw with hw | hw
      · obtain ⟨way', hw', rfl⟩ := List.mem_map.mp hw
        obtain ⟨taken, ht, hq⟩ := ih way' hw'
        exact ⟨d :: taken, by simp [← ht], Joins.append (h d hd) hq⟩
      · exact pure [] _ way hw
    · exact pure [] _ way hw

lemma span {c : Char → Bool} (h : ∀ d, c d = true → q [d]) : Takes q (Reader.span c) := by
  intro text way hw
  obtain rfl := List.mem_singleton.mp hw
  refine ⟨text.takeWhile c, List.takeWhile_append_dropWhile.symm, ?_⟩
  induction text with
  | nil => exact Joins.nil
  | cons d text ih =>
    rw [List.takeWhile_cons]
    split
    · next hd => exact Joins.append (h d hd) (ih List.mem_cons_self)
    · exact Joins.nil

lemma run1 {c : Char → Bool} (h : ∀ d, c d = true → q [d]) : Takes q (Reader.run1 c) :=
  (char h).bind fun _ => (run h).bind fun _ => pure _

lemma blanks (h : ∀ d, isSpace d = true → q [d]) : Takes q Reader.blanks :=
  (run1 h).map _

lemma span1 {c : Char → Bool} (h : ∀ d, c d = true → q [d]) : Takes q (Reader.span1 c) :=
  (char h).bind fun _ => (span h).bind fun _ => pure _

lemma quoted (h : ∀ d, q [d]) : Takes q Reader.quoted :=
  (literal (h '"')).bind fun _ => (span fun d _ => h d).bind fun _ => (literal (h '"')).bind fun _ => pure _

lemma quotedNonempty (h : ∀ d, q [d]) : Takes q Reader.quotedNonempty :=
  (literal (h '"')).bind fun _ => (span1 fun d _ => h d).bind fun _ => (literal (h '"')).bind fun _ => pure _

lemma upTo {r : Reader α} (hr : Takes q r) (count : Nat) : Takes q (Reader.upTo r count) := by
  induction count with
  | zero => exact pure []
  | succ count ih => exact (hr.bind fun a => ih.map (a :: ·)).orElse (pure [])

lemma many1 {r : Reader α} (hr : Takes q r) : Takes q (Reader.many1 r) :=
  hr.bind fun _ => Takes.bind (fun text => hr.upTo text.length text) fun _ => pure _

lemma phrase {words : List String} (h : ∀ word ∈ words, q (chars word)) (hs : ∀ d, isSpace d = true → q [d]) :
    Takes q (Reader.phrase words) := by
  induction words with
  | nil => exact pure ()
  | cons word words ih =>
    rw [List.forall_mem_cons] at h
    cases words with
    | nil => exact literal h.1
    | cons other words => exact (literal h.1).bind fun _ => (blanks hs).bind fun _ => ih h.2

end

/-- White space is read as one character at least. -/
lemma blanks_nonempty : Takes (· ≠ []) Reader.blanks := by
  have hfirst : Takes (· ≠ []) (Reader.char isSpace) := Takes.char fun d _ => List.cons_ne_nil d []
  have hothers : Takes (fun _ => True) (Reader.run isSpace) := Takes.run fun _ _ => trivial
  apply Takes.map
  apply hfirst.join fun _ => hothers.bind fun _ => Takes.pure _
  exact fun u v hu _ => List.append_ne_nil_of_left_ne_nil hu v

lemma suffix {q : List Char → Prop} {r : Reader α} (hr : Takes q r) {text : List Char} {way : α × List Char}
    (h : way ∈ r text) : way.2 <:+ text := by
  obtain ⟨taken, ht, _⟩ := hr text way h
  exact ⟨taken, ht.symm⟩

end Takes

/-- There are no more values than characters, if each takes up some text. -/
lemma upTo_eq_of_length_le {r : Reader α} (hr : Takes (· ≠ []) r) {n m : Nat} {text : List Char}
    (hn : text.length ≤ n) (hm : text.length ≤ m) : upTo r n text = upTo r m text := by
  have hshorter {text : List Char} {way : α × List Char} (hw : way ∈ r text) : way.2.length < text.length := by
    obtain ⟨taken, ht, hne⟩ := hr text way hw
    have := List.length_pos_of_ne_nil hne
    rw [ht, List.length_append]
    omega
  have hnil (n : Nat) : upTo r n [] = [([], [])] := by
    cases n with
    | zero => rfl
    | succ n =>
      have hr : r [] = [] := List.eq_nil_iff_forall_not_mem.mpr fun way hw => absurd (hshorter hw) (by simp)
      change (r []).flatMap _ ++ _ = _
      rw [hr]
      rfl
  induction n generalizing m text with
  | zero =>
    obtain rfl := List.length_eq_zero_iff.mp (Nat.le_zero.mp hn)
    rw [hnil, hnil]
  | succ n ih =>
    cases m with
    | zero =>
      obtain rfl := List.length_eq_zero_iff.mp (Nat.le_zero.mp hm)
      rw [hnil, hnil]
    | succ m =>
      change (r text).flatMap _ ++ _ = (r text).flatMap _ ++ _
      congr 1
      apply List.flatMap_congr
      intro way hw
      have hlt := hshorter hw
      have he : upTo r n way.2 = upTo r m way.2 := ih (by omega) (by omega)
      change (upTo r n way.2).flatMap _ = (upTo r m way.2).flatMap _
      rw [he]

/-- No way of the reader takes the character. -/
def Avoids (d : Char) (r : Reader α) : Prop :=
  Takes (d ∉ ·) r

namespace Avoids

variable {d : Char}

lemma not_mem_singleton {p : Char → Bool} (h : p d = false) (c : Char) (hc : p c = true) : d ∉ [c] := by
  rw [List.mem_singleton]
  rintro rfl
  simp [h] at hc

lemma blanks (h : isSpace d = false) : Avoids d Reader.blanks :=
  Takes.blanks (not_mem_singleton h)

lemma phrase {words : List String} (h : ∀ word ∈ words, d ∉ chars word) (hs : isSpace d = false) :
    Avoids d (Reader.phrase words) :=
  Takes.phrase h (not_mem_singleton hs)

end Avoids

/-- Every value that the reader reads is like this. -/
def Yields (p : α → Prop) (r : Reader α) : Prop :=
  ∀ text, ∀ way ∈ r text, p way.1

namespace Yields

variable {p : α → Prop}

lemma pure {a : α} (h : p a) : Yields p (Pure.pure a : Reader α) := by
  intro text way hw
  obtain rfl := List.mem_singleton.mp hw
  exact h

lemma bind {q : β → Prop} {r : Reader β} {f : β → Reader α} (hr : Yields q r)
    (hf : ∀ b, q b → Yields p (f b)) : Yields p (r >>= f) := by
  intro text way hw
  obtain ⟨first, hfirst, hw⟩ := mem_bind.mp hw
  exact hf first.1 (hr text first hfirst) first.2 way hw

lemma after (r : Reader β) {f : β → Reader α} (hf : ∀ b, Yields p (f b)) : Yields p (r >>= f) :=
  bind (q := fun _ => True) (fun _ _ _ => trivial) fun b _ => hf b

lemma firstOf {rs : List (Reader α)} (h : ∀ r ∈ rs, Yields p r) : Yields p (Reader.firstOf rs) := by
  induction rs with
  | nil =>
    intro text way hw
    exact absurd hw List.not_mem_nil
  | cons r rs ih =>
    rw [List.forall_mem_cons] at h
    intro text way hw
    rcases List.mem_append.mp hw with hw | hw
    · exact h.1 text way hw
    · exact ih h.2 text way hw

lemma optional {r : Reader α} (h : Yields p r) : Yields (fun a => ∀ x ∈ a, p x) (Reader.optional r) := by
  intro text way hw
  rcases List.mem_append.mp hw with hw | hw
  · obtain ⟨first, hfirst, hw⟩ := mem_bind.mp hw
    obtain rfl := List.mem_singleton.mp hw
    rintro _ ⟨⟩
    exact h text first hfirst
  · obtain rfl := List.mem_singleton.mp hw
    rintro _ ⟨⟩

lemma char (p : Char → Bool) : Yields (p · = true) (Reader.char p) := by
  intro text way hw
  cases text with
  | nil => exact absurd hw List.not_mem_nil
  | cons c text =>
    rw [Reader.char] at hw
    split at hw
    · next hc =>
      obtain rfl := List.mem_singleton.mp hw
      exact hc
    · exact absurd hw List.not_mem_nil

lemma span1 (p : Char → Bool) : Yields (∀ c ∈ ·, p c = true) (Reader.span1 p) := by
  have hspan : Yields (∀ c ∈ ·, p c = true) (span p) := by
    intro text way hw
    obtain rfl := List.mem_singleton.mp hw
    exact fun c hc => List.mem_takeWhile_imp hc
  refine (char p).bind fun c hc => hspan.bind fun others ho => pure ?_
  exact List.forall_mem_cons.mpr ⟨hc, ho⟩

lemma quotedNonempty : Yields ('"' ∉ ·) Reader.quotedNonempty := by
  refine after _ fun _ => (span1 _).bind fun content hc => after _ fun _ => pure ?_
  intro hq
  exact absurd (hc '"' hq) (by simp)

end Yields

/-- What is found by a search is like what is read. -/
lemma Yields.of_search? {p : α → Prop} {r : Reader α} (hr : Yields p r) {text : List Char} {a : α}
    (h : search? r text = some a) : p a := by
  obtain ⟨before, after, rest, -, hread⟩ := exists_of_search? h
  exact hr after _ hread

end Reader

end ProseSchema
