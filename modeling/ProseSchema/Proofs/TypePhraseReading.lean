import Mathlib.Data.List.Nodup
import ProseSchema.Proofs.ListItems

/-!
# Reading type phrases

No two type phrases are written alike, and each is a single word. So the word in front of a blank is read as
the phrase that it was written from, though many phrases start with the words of others.
-/

namespace ProseSchema

open Reader

variable {γ : Type}

namespace TypePhrase

lemma mem_all (phrase : TypePhrase) : phrase ∈ all := by
  obtain ⟨nullable, arrangement, base⟩ := phrase
  have hn : nullable ∈ [false, true] := by cases nullable <;> simp
  have ha : arrangement ∈ [Arrangement.single, .array false, .array true] := by
    cases arrangement with
    | single => simp
    | array nonempty => cases nonempty <;> simp
  have hb : base ∈ BaseType.all := by
    cases base with
    | plain type => cases type <;> decide
    | signed sign type => cases sign <;> cases type <;> decide
  exact List.mem_flatMap.mpr ⟨nullable, hn, List.mem_flatMap.mpr ⟨arrangement, ha,
    List.mem_map.mpr ⟨base, hb, rfl⟩⟩⟩

/-- The characters as the digits of a number. Numbers are told apart faster than texts. -/
def code (word : List Char) : Nat :=
  word.foldl (fun n c => 128 * n + c.toNat) 0

lemma nodup_codes : (all.map fun phrase => code (chars phrase.token)).Nodup := by
  decide +kernel

/-- No two phrases are written alike. -/
lemma token_injective {a b : TypePhrase} (h : chars a.token = chars b.token) : a = b :=
  List.inj_on_of_nodup_map nodup_codes (mem_all a) (mem_all b) (congrArg code h)

lemma spaceless_token (phrase : TypePhrase) : Spaceless (chars phrase.token) := by
  have hall : ∀ phrase ∈ all, Spaceless (chars phrase.token) := by decide +kernel
  exact hall phrase (mem_all phrase)

lemma token_ne_nil (phrase : TypePhrase) : chars phrase.token ≠ [] := by
  have hall : ∀ phrase ∈ all, chars phrase.token ≠ [] := by decide +kernel
  exact hall phrase (mem_all phrase)

lemma token_ne_field (phrase : TypePhrase) : chars phrase.token ≠ chars "field" := by
  have hall : ∀ phrase ∈ all, chars phrase.token ≠ chars "field" := by decide +kernel
  exact hall phrase (mem_all phrase)

end TypePhrase

/-- A word in front of a blank is read as this word and no other. -/
lemma outcome_literal_blanks {u v : List Char} (hu : Spaceless u) (hv : Spaceless v) (next : Unit → List Char → Option γ) {rest : List Char}
    (hs : Solid rest) : (literal u).outcome (fun _ text => blanks.outcome next text) (v ++ ' ' :: rest) =
      if u = v then next () rest else none := by
  induction u generalizing v with
  | nil =>
    cases v with
    | nil => simp [hs]
    | cons d v =>
      have hd : Solid (d :: (v ++ ' ' :: rest)) := (solid_cons _ _).mpr (hv d List.mem_cons_self)
      simp [hd]
  | cons c u ih =>
    rw [Spaceless, List.forall_mem_cons] at hu
    cases v with
    | nil =>
      have hc : c ≠ ' ' := by
        rintro rfl
        exact absurd hu.1 (by decide)
      simp [hc]
    | cons d v =>
      rw [Spaceless, List.forall_mem_cons] at hv
      rw [List.cons_append, outcome_literal_cons_cons, ih hu.2 hv.2]
      by_cases h : c = d <;> simp [h]

lemma findSome?_eq_of_mem {α β : Type} {l : List α} {f : α → Option β} {a : α} {b : β} (ha : a ∈ l)
    (hf : f a = some b) (hu : ∀ x ∈ l, f x = none ∨ f x = some b) : l.findSome? f = some b := by
  cases h : l.findSome? f with
  | none =>
    rw [List.findSome?_eq_none_iff] at h
    exact absurd (hf.symm.trans (h a ha)) (by simp)
  | some d =>
    obtain ⟨x, hx, hd⟩ := List.exists_of_findSome?_eq_some h
    rcases hu x hx with hn | hs
    · exact absurd (hd.symm.trans hn) (by simp)
    · exact hd.symm.trans hs

namespace Grammar

lemma outcome_typePhrase {word : List Char} (hw : Spaceless word)
    (next : TypePhrase → List Char → Option γ) {rest : List Char} (hs : Solid rest) :
    typePhrase.outcome next (word ++ ' ' :: rest) =
      TypePhrase.all.findSome? fun phrase => if chars phrase.token = word then next phrase rest else none := by
  simp only [typePhrase, outcome_bind, outcome_firstOf, List.findSome?_map, Function.comp_def, keyword,
    outcome_pure]
  congr 1
  funext phrase
  exact outcome_literal_blanks phrase.spaceless_token hw (fun _ rest => next phrase rest) hs

lemma solid_type (type : Option TypePhrase) (rest : List Char) :
    Solid ((type.map fun phrase => chars phrase.token ++ [' ']).getD [] ++ (chars "field " ++ rest)) := by
  cases type with
  | none =>
    simp
  | some phrase =>
    rw [Option.map_some, Option.getD_some, List.append_assoc]
    exact phrase.spaceless_token.solid.append phrase.token_ne_nil _

/-- Behind the article a type phrase is read, or none if the word is "field". -/
lemma outcome_optional_typePhrase (type : Option TypePhrase)
    {next : Option TypePhrase → List Char → Option γ} {rest : List Char} {c : γ} (hs : Solid rest)
    (hn : next type (chars "field " ++ rest) = some c) :
    (optional typePhrase).outcome next
      ((type.map fun phrase => chars phrase.token ++ [' ']).getD [] ++ (chars "field " ++ rest)) = some c := by
  have ht : chars "field " ++ rest = chars "field" ++ ' ' :: rest := by simp
  have hf : Spaceless (chars "field") := by decide
  rw [ht] at hn ⊢
  cases type with
  | none =>
    have hp : TypePhrase.all.findSome? (fun phrase =>
        if chars phrase.token = chars "field" then next (some phrase) rest else none) = none := by
      rw [List.findSome?_eq_none_iff]
      intro phrase _
      exact if_neg phrase.token_ne_field
    rw [outcome_optional, Option.map_none, Option.getD_none, List.nil_append, outcome_typePhrase hf _ hs, hp,
      hn]
    rfl
  | some phrase =>
    have hsf : Solid (chars "field" ++ ' ' :: rest) := by simp
    have hp : TypePhrase.all.findSome? (fun other => if chars other.token = chars phrase.token then
        next (some other) (chars "field" ++ ' ' :: rest) else none) = some c := by
      apply findSome?_eq_of_mem (TypePhrase.mem_all phrase)
      · rw [if_pos rfl, hn]
      · intro other _
        split
        · next h => exact .inr (TypePhrase.token_injective h ▸ hn)
        · exact .inl rfl
    rw [outcome_optional, Option.map_some, Option.getD_some, List.append_assoc, List.singleton_append,
      outcome_typePhrase phrase.spaceless_token _ hsf, hp]
    rfl

end Grammar

end ProseSchema
