import Mathlib.Data.List.Basic
import Mathlib.Data.List.TakeDrop
import Mathlib.Data.List.TakeWhile
import Mathlib.Data.Nat.Digits.Defs
import ProseSchema.Literal
import ProseSchema.Proofs.RoundedIntegers
import ProseSchema.Text.Chars

/-!
# Numerals

Tokens that are read as numbers: digits behind a sign or without one, and more digits behind a point. An integer
of any length is taken for the number that it is rounded to.
-/

namespace ProseSchema

section Digits

lemma natOfDigits_eq (digits : List Char) : natOfDigits digits = Nat.ofDigitChars 10 digits 0 :=
  rfl

@[simp] lemma natOfDigits_toDigits (n : Nat) : natOfDigits (Nat.toDigits 10 n) = n := by
  rw [natOfDigits_eq, Nat.ofDigitChars_toDigits (by decide) (by decide)]

lemma natOfDigits_append (digits more : List Char) :
    natOfDigits (digits ++ more) = 10 ^ more.length * natOfDigits digits + natOfDigits more := by
  simp only [natOfDigits_eq, Nat.ofDigitChars_append]
  exact Nat.ofDigitChars_eq_ofDigitChars_zero

@[simp] lemma natOfDigits_zeros (count : Nat) : natOfDigits (List.replicate count '0') = 0 := by
  rw [natOfDigits_eq, Nat.ofDigitChars_replicate_zero, Nat.mul_zero]

end Digits

namespace Literal

def IsDigits (text : List Char) : Prop :=
  text ≠ [] ∧ ∀ c ∈ text, c.isDigit = true

/-- Digits, and more of them behind a point where there is a fraction. -/
def decimalText (whole : List Char) (fraction : Option (List Char)) : List Char :=
  whole ++ (fraction.map ('.' :: ·)).getD []

/-- The text is a number as it is written in rules. -/
def IsNumeral (text : List Char) : Prop :=
  ∃ sign ∈ [[], ['-']], ∃ whole fraction, text = sign ++ decimalText whole fraction ∧ IsDigits whole ∧
    ∀ digits ∈ fraction, IsDigits digits

/-- The digits that stand behind a sign. -/
def unsigned? (negative : Bool) (text : List Char) : Option (Bool × List Char × Option (List Char)) :=
  let (whole, rest) := text.span Char.isDigit
  if whole.isEmpty then none
  else match rest with
    | [] => some (negative, whole, none)
    | '.' :: fraction =>
      if !fraction.isEmpty && fraction.all Char.isDigit then some (negative, whole, some fraction)
      else none
    | _ => none

lemma numeral?_minus (text : List Char) : numeral? ('-' :: text) = unsigned? true text :=
  rfl

lemma numeral?_of_ne {text : List Char} (h : text.head? ≠ some '-') : numeral? text = unsigned? false text := by
  rw [numeral?]
  · rfl
  · rintro rest rfl
    exact h rfl

lemma unsigned?_decimalText (negative : Bool) {whole : List Char} (hw : IsDigits whole)
    {fraction : Option (List Char)} (hf : ∀ digits ∈ fraction, IsDigits digits) :
    unsigned? negative (decimalText whole fraction) = some (negative, whole, fraction) := by
  have hspan : (decimalText whole fraction).span Char.isDigit = (whole, (fraction.map ('.' :: ·)).getD []) := by
    rw [List.span_eq_takeWhile_dropWhile, decimalText, List.takeWhile_append_of_pos hw.2,
      List.dropWhile_append_of_pos hw.2]
    cases fraction <;> simp
  rw [unsigned?, hspan]
  dsimp only
  rw [if_neg (by simpa using hw.1)]
  cases fraction with
  | none => rfl
  | some digits => simpa [IsDigits] using hf digits rfl

lemma numeral?_decimalText {whole : List Char} (hw : IsDigits whole) {fraction : Option (List Char)}
    (hf : ∀ digits ∈ fraction, IsDigits digits) :
    numeral? (decimalText whole fraction) = some (false, whole, fraction) := by
  have hm : (decimalText whole fraction).head? ≠ some '-' := by
    obtain ⟨c, digits, rfl⟩ := List.exists_cons_of_ne_nil hw.1
    intro he
    obtain rfl : c = '-' := by simpa [decimalText] using he
    exact absurd (hw.2 _ List.mem_cons_self) (by decide)
  rw [numeral?_of_ne hm, unsigned?_decimalText false hw hf]

lemma exists_of_unsigned? {negative : Bool} {text : List Char} (h : (unsigned? negative text).isSome = true) :
    ∃ whole fraction, text = decimalText whole fraction ∧ IsDigits whole ∧ ∀ digits ∈ fraction, IsDigits digits := by
  have ht : text = text.takeWhile Char.isDigit ++ text.dropWhile Char.isDigit :=
    List.takeWhile_append_dropWhile.symm
  have hd : ∀ c ∈ text.takeWhile Char.isDigit, c.isDigit = true := fun c hc => List.mem_takeWhile_imp hc
  simp only [unsigned?, List.span_eq_takeWhile_dropWhile, List.isEmpty_iff] at h
  split at h
  · simp at h
  · next hne =>
    split at h
    · next hrest =>
      refine ⟨text.takeWhile Char.isDigit, none, ?_, ⟨hne, hd⟩, by simp⟩
      rwa [hrest] at ht
    · next fraction hrest =>
      split at h
      · next hf =>
        refine ⟨text.takeWhile Char.isDigit, some fraction, ?_, ⟨hne, hd⟩, ?_⟩
        · rwa [hrest] at ht
        · simpa [IsDigits] using hf
      · simp at h
    · simp at h

lemma isSome_numeral?_iff (text : List Char) : (numeral? text).isSome = true ↔ IsNumeral text := by
  constructor
  · intro h
    by_cases hm : text.head? = some '-'
    · obtain ⟨rest, rfl⟩ := List.head?_eq_some_iff.mp hm
      rw [numeral?_minus] at h
      obtain ⟨whole, fraction, rfl, hw, hf⟩ := exists_of_unsigned? h
      exact ⟨['-'], by simp, whole, fraction, rfl, hw, hf⟩
    · rw [numeral?_of_ne hm] at h
      obtain ⟨whole, fraction, rfl, hw, hf⟩ := exists_of_unsigned? h
      exact ⟨[], by simp, whole, fraction, rfl, hw, hf⟩
  · rintro ⟨sign, hs, whole, fraction, rfl, hw, hf⟩
    rcases List.mem_pair.mp hs with rfl | rfl
    · rw [List.nil_append, numeral?_decimalText hw hf, Option.isSome_some]
    · rw [List.singleton_append, numeral?_minus, unsigned?_decimalText true hw hf, Option.isSome_some]

instance : DecidablePred IsNumeral := fun text =>
  decidable_of_iff _ (isSome_numeral?_iff text)

/-- The text is no keyword and no number, so that it stands for itself where no quotes are around it. -/
def StandsForItself (text : String) : Prop :=
  text ∉ ["true", "false", "null"] ∧ ¬IsNumeral (chars text)

instance : DecidablePred StandsForItself := fun _ =>
  inferInstanceAs (Decidable (_ ∧ _))

lemma ofNumeral_ne_string (negative : Bool) (whole : List Char) (fraction : Option (List Char)) (text : String) :
    ofNumeral negative whole fraction ≠ .string text := by
  unfold ofNumeral
  split
  · dsimp only
    split <;> split <;> simp
  · simp

lemma unquoted?_eq_none {token : List Char} (h : '"' ∉ token) : unquoted? token = none := by
  unfold unquoted?
  split
  · simp at h
  · rfl

/-- A token without quotes is read as text only as the text that it is, and only if it stands for itself. -/
lemma ofToken_eq_string_iff {token text : String} (h : '"' ∉ chars token) :
    ofToken token = .string text ↔ token = text ∧ StandsForItself token := by
  have hnumeral := isSome_numeral?_iff (chars token)
  rw [chars_eq_toList] at h hnumeral
  have hquote := unquoted?_eq_none h
  by_cases hk : token ∈ ["true", "false", "null"]
  · have hne : ofToken token ≠ .string text := by
      rw [ofToken, hquote]
      simp only [List.mem_cons, List.not_mem_nil, or_false] at hk
      rcases hk with rfl | rfl | rfl <;> simp
    exact iff_of_false hne fun hs => hs.2.1 hk
  · obtain ⟨htrue, hfalse, hnull⟩ : token ≠ "true" ∧ token ≠ "false" ∧ token ≠ "null" := by simpa using hk
    cases hn : numeral? token.toList with
    | none =>
      have hnot : ¬IsNumeral (chars token) := by
        rw [chars_eq_toList, ← hnumeral, hn]
        simp
      have hs : StandsForItself token := ⟨hk, hnot⟩
      simp [ofToken, hquote, htrue, hfalse, hnull, hn, hs]
    | some numeral =>
      have hne : ofToken token ≠ .string text := by
        simp [ofToken, hquote, htrue, hfalse, hnull, hn, ofNumeral_ne_string]
      have hnumeral' : IsNumeral (chars token) := by
        rw [chars_eq_toList, ← hnumeral, hn, Option.isSome_some]
      exact iff_of_false hne fun hs => hs.2.2 hnumeral'

lemma isDigits_toDigits (n : Nat) : IsDigits (Nat.toDigits 10 n) :=
  ⟨Nat.toDigits_ne_nil, fun _ hc => Nat.isDigit_of_mem_toDigits (by decide) (by decide) hc⟩

/-- The sign of a number as it is written. -/
def signText (negative : Bool) : List Char :=
  if negative then ['-'] else []

lemma numeral?_signText (negative : Bool) {whole : List Char} (hw : IsDigits whole) {fraction : Option (List Char)}
    (hf : ∀ digits ∈ fraction, IsDigits digits) :
    numeral? (signText negative ++ decimalText whole fraction) = some (negative, whole, fraction) := by
  cases negative with
  | false => exact numeral?_decimalText hw hf
  | true => exact unsigned?_decimalText true hw hf

/-- A numeral is read as the number that it stands for. -/
lemma ofToken_of_numeral? {token : String} {negative : Bool} {whole : List Char} {fraction : Option (List Char)}
    (h : numeral? token.toList = some (negative, whole, fraction)) :
    ofToken token = ofNumeral negative whole fraction := by
  have hquote : unquoted? token.toList = none := by
    cases ht : token.toList with
    | nil => rfl
    | cons c rest =>
      have hne : c ≠ '"' := by
        rintro rfl
        rw [ht] at h
        simp [numeral?] at h
      unfold unquoted?
      split
      · next heq => exact absurd (List.cons.inj heq).1 hne
      · rfl
  have hkeyword : token ∉ ["true", "false", "null"] := by
    intro hk
    simp only [List.mem_cons, List.not_mem_nil, or_false] at hk
    rcases hk with rfl | rfl | rfl <;> exact absurd h (by simp [numeral?])
  obtain ⟨htrue, hfalse, hnull⟩ : token ≠ "true" ∧ token ≠ "false" ∧ token ≠ "null" := by simpa using hkeyword
  simp [ofToken, hquote, htrue, hfalse, hnull, h]

/-- The integer that digits behind a sign stand for. -/
def signedValue (negative : Bool) (digits : List Char) : Int :=
  if negative then -natOfDigits digits else natOfDigits digits

/-- The token is a sign or none and digits, which stand for the integer. -/
def WritesInteger (token : String) (i : Int) : Prop :=
  ∃ negative digits, token.toList = signText negative ++ digits ∧ IsDigits digits ∧ i = signedValue negative digits

end Literal

namespace Binary64

/-- An exponent in the range of numbers is taken as it is. -/
lemma ofDecimal_eq (negative : Bool) (digits : Nat) {exponent : Int} (hlow : -400 ≤ exponent) (hhigh : exponent ≤ 400) :
    ofDecimal negative digits exponent =
      ofQuotient negative (digits * 10 ^ exponent.toNat) (10 ^ (-exponent).toNat) := by
  have hclamp : max (min exponent 400) (-(400 + digits.log2 : Nat)) = exponent := by omega
  rw [ofDecimal, hclamp]
  rfl

lemma ofDecimal_signedValue {negative : Bool} {digits : List Char} (h : Literal.signedValue negative digits ≠ 0) :
    ofDecimal negative (natOfDigits digits) 0 = ofInt (Literal.signedValue negative digits) := by
  have hsign : decide (Literal.signedValue negative digits < 0) = negative := by
    cases negative <;> simp only [Literal.signedValue, if_true, Bool.false_eq_true, if_false, ne_eq] at h ⊢
    · exact decide_eq_false (by omega)
    · exact decide_eq_true (by omega)
  have habs : (Literal.signedValue negative digits).natAbs = natOfDigits digits := by
    cases negative <;> simp [Literal.signedValue]
  rw [ofDecimal_eq negative _ (by decide) (by decide), ofInt, hsign, habs]
  simp

end Binary64

namespace Literal

lemma ofNumeral_none (negative : Bool) (whole : List Char) : ofNumeral negative whole none =
    if Number.leastInt64 ≤ signedValue negative whole && signedValue negative whole ≤ Number.greatestInt64 then
      .integer (signedValue negative whole)
    else .float (Binary64.ofDecimal negative (natOfDigits whole) 0) :=
  rfl

lemma WritesInteger.ofToken_eq {token : String} {i : Int} (h : WritesInteger token i) :
    ∃ negative digits, i = signedValue negative digits ∧ ofToken token = ofNumeral negative digits none := by
  obtain ⟨negative, digits, ht, hd, hi⟩ := h
  have hnone : ∀ more ∈ (none : Option (List Char)), IsDigits more := by simp
  have hread : numeral? token.toList = some (negative, digits, none) := by
    rw [ht, ← numeral?_signText negative hd hnone, decimalText, Option.map_none, Option.getD_none, List.append_nil]
  exact ⟨negative, digits, hi, ofToken_of_numeral? hread⟩

/-- An integer of any length is taken for the number that it is rounded to. -/
lemma toBinary64?_ofToken {token : String} {i : Int} (h : WritesInteger token i) :
    (ofToken token).toBinary64? = some (Binary64.ofInt i) := by
  obtain ⟨negative, digits, rfl, htoken⟩ := h.ofToken_eq
  rw [htoken, ofNumeral_none]
  split
  · rfl
  · next hout =>
    have hne : signedValue negative digits ≠ 0 := by
      intro h0
      rw [h0] at hout
      exact hout (by decide)
    rw [toBinary64?, Binary64.ofDecimal_signedValue hne]

end Literal

end ProseSchema
