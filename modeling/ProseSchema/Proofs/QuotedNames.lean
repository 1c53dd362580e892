import ProseSchema.Proofs.ListItems
import ProseSchema.Proofs.QuotelessRoles

/-!
# Quoted names

The text that a list takes up is scanned once more for what stands between its quotes. There is at least one name
there, and none is empty or has a quote itself.
-/

namespace ProseSchema

open Enumeration

namespace Reader

variable {α β : Type}

/-- What the reader takes leaves no quote open, and the texts between its quotes are like this. -/
def Quotes (p : List String → Prop) (r : Reader α) : Prop :=
  ∀ text, ∀ way ∈ r text, ∃ taken items, text = taken ++ way.2 ∧ p items ∧
    ∀ more, quotedFrom none (taken ++ more) = items ++ quotedFrom none more

namespace Quotes

variable {p q t : List String → Prop}

lemma bind {r : Reader α} {f : α → Reader β} (hr : Quotes p r) (hf : ∀ a, Quotes q (f a))
    (h : ∀ items others, p items → q others → t (items ++ others)) : Quotes t (r >>= f) := by
  intro text way hw
  obtain ⟨first, hfirst, hw⟩ := mem_bind.mp hw
  obtain ⟨u, items, hu, hitems, hscan⟩ := hr text first hfirst
  obtain ⟨v, others, hv, hothers, hscan'⟩ := hf first.1 first.2 way hw
  refine ⟨u ++ v, items ++ others, ?_, h items others hitems hothers, ?_⟩
  · rw [hu, hv, List.append_assoc]
  · intro more
    rw [List.append_assoc, hscan, hscan', List.append_assoc]

lemma of_avoids {r : Reader α} (hr : Avoids '"' r) : Quotes (· = []) r := by
  intro text way hw
  obtain ⟨taken, ht, hq⟩ := hr text way hw
  exact ⟨taken, [], ht, rfl, quotedFrom_between hq⟩

lemma after {r : Reader α} {f : α → Reader β} (hr : Avoids '"' r) (hf : ∀ a, Quotes q (f a)) :
    Quotes q (r >>= f) := by
  apply (of_avoids hr).bind hf
  rintro _ others rfl ho
  exact ho

lemma pure (h : p []) (a : α) : Quotes p (Pure.pure a) := by
  intro text way hw
  obtain rfl := List.mem_singleton.mp hw
  exact ⟨[], [], rfl, h, fun _ => rfl⟩

lemma orElse {r s : Reader α} (hr : Quotes p r) (hs : Quotes p s) : Quotes p (Reader.orElse r s) := by
  intro text way hw
  rcases List.mem_append.mp hw with hw | hw
  · exact hr text way hw
  · exact hs text way hw

/-! Texts that are all alike. -/

variable {good : String → Prop}

lemma bind_all {r : Reader α} {f : α → Reader β} (hr : Quotes (∀ item ∈ ·, good item) r)
    (hf : ∀ a, Quotes (∀ item ∈ ·, good item) (f a)) : Quotes (∀ item ∈ ·, good item) (r >>= f) :=
  hr.bind hf fun _ _ hi ho => List.forall_mem_append.mpr ⟨hi, ho⟩

lemma pure_all (a : α) : Quotes (∀ item ∈ ·, good item) (Pure.pure a : Reader α) :=
  pure (List.forall_mem_nil _) a

lemma optional {r : Reader α} (h : Quotes (∀ item ∈ ·, good item) r) :
    Quotes (∀ item ∈ ·, good item) (Reader.optional r) :=
  orElse (h.bind_all fun a => pure_all (some a)) (pure_all none)

lemma upTo {r : Reader α} (h : Quotes (∀ item ∈ ·, good item) r) (count : Nat) :
    Quotes (∀ item ∈ ·, good item) (Reader.upTo r count) := by
  induction count with
  | zero => exact pure_all []
  | succ count ih =>
    exact orElse (h.bind_all fun a => ih.bind_all fun others => pure_all (a :: others)) (pure_all [])

lemma many1 {r : Reader α} (h : Quotes (∀ item ∈ ·, good item) r) :
    Quotes (∀ item ∈ ·, good item) (Reader.many1 r) := by
  have hmany : Quotes (∀ item ∈ ·, good item) (Reader.many r) := fun text => h.upTo text.length text
  exact h.bind_all fun a => hmany.bind_all fun others => pure_all (a :: others)

/-- A list quotes what its items do. -/
lemma list {connector : String} (hc : '"' ∉ chars connector) {particle : Reader α}
    (h : Quotes (fun items => items ≠ [] ∧ ∀ item ∈ items, good item) particle) :
    Quotes (fun items => items ≠ [] ∧ ∀ item ∈ items, good item) (Enumeration.list connector particle) := by
  have hcomma : Avoids '"' (literal [',']) := Takes.literal (by decide)
  have hblanks : Avoids '"' blanks := Avoids.blanks isSpace_quote
  have hparticle : Quotes (∀ item ∈ ·, good item) particle := by
    intro text way hw
    obtain ⟨taken, items, ht, ⟨_, hi⟩, hscan⟩ := h text way hw
    exact ⟨taken, items, ht, hi, hscan⟩
  have hmiddle : Quotes (∀ item ∈ ·, good item) (middle particle) :=
    (many1 (after hcomma fun _ => after hblanks fun _ => hparticle)).bind_all fun _ =>
      after hcomma fun _ => pure_all _
  have htail : Quotes (∀ item ∈ ·, good item) (tail connector particle) :=
    hmiddle.optional.bind_all fun _ => after hblanks fun _ => after (Takes.literal hc) fun _ =>
      after hblanks fun _ => hparticle.bind_all fun _ => pure_all _
  refine h.bind (fun _ => htail.optional.bind_all fun _ => pure_all _) ?_
  rintro items others ⟨hne, hi⟩ ho
  exact ⟨List.append_ne_nil_of_left_ne_nil hne others, List.forall_mem_append.mpr ⟨hi, ho⟩⟩

end Quotes

lemma mem_quotedNonempty {text : List Char} {way : List Char × List Char} (h : way ∈ quotedNonempty text) :
    text = quote (String.ofList way.1) ++ way.2 ∧ IsQuotable (String.ofList way.1) := by
  have hq := Yields.quotedNonempty text way h
  obtain ⟨opened, hopened, h⟩ := mem_bind.mp h
  obtain ⟨content, hcontent, h⟩ := mem_bind.mp h
  obtain ⟨closed, hclosed, h⟩ := mem_bind.mp h
  obtain rfl := List.mem_singleton.mp h
  obtain ⟨hc, hne⟩ := mem_span1 hcontent
  refine ⟨?_, by simpa using hne, by simpa using hq⟩
  rw [mem_literal hopened, hc, mem_literal hclosed]
  simp [quote]

lemma yields_quotedNonempty : Yields (fun name => IsQuotable (String.ofList name)) quotedNonempty :=
  fun _ _ hw => (mem_quotedNonempty hw).2

lemma quotes_quotedNonempty :
    Quotes (fun items => items ≠ [] ∧ ∀ item ∈ items, IsQuotable item) quotedNonempty := by
  intro text way hw
  obtain ⟨ht, hq⟩ := mem_quotedNonempty hw
  exact ⟨_, [String.ofList way.1], ht, by simpa using hq, quotedFrom_quote hq.2⟩

end Reader

namespace Grammar

open Reader

/-- From the text of a list of names at least one is recovered, and none that is empty or has a quote. -/
theorem yields_quotedList {connector : String} (hc : '"' ∉ chars connector) :
    Yields (fun text => quotedItems text ≠ [] ∧ ∀ name ∈ quotedItems text, IsQuotable name)
      (quotedList connector quotedNonempty) := by
  intro text way hw
  obtain ⟨both, hboth, hw⟩ := mem_bind.mp hw
  obtain rfl := List.mem_singleton.mp hw
  obtain ⟨way, hway, rfl⟩ := List.mem_map.mp hboth
  obtain ⟨taken, items, rfl, hitems, hscan⟩ := quotes_quotedNonempty.list hc text way hway
  have hi : quotedItems taken = items := by
    have h := hscan []
    rwa [List.append_nil, quotedFrom, List.append_nil] at h
  have ht : (taken ++ way.2).take ((taken ++ way.2).length - way.2.length) = taken := by simp
  rw [ht, hi]
  exact hitems

end Grammar

end ProseSchema
