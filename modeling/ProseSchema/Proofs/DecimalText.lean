import ProseSchema.Proofs.Numerals
import ProseSchema.Proofs.ShortestDecimals

/-!
# Texts of floating-point numbers

A floating-point number is written without an exponent and with a point, and its text is read as a token again.
Every finite number comes back in this way. A token can stand for a number too great to be finite, from half way
between the greatest number and the limit on, and such a number is lost.
-/

namespace ProseSchema

namespace Binary64

/-- The number is none of the two infinities. -/
inductive IsFinite : Binary64 → Prop
  | finite (negative : Bool) (units : Nat) : IsFinite (.finite negative units)

lemma not_isFinite_infinite (negative : Bool) : ¬(infinite negative).IsFinite :=
  nofun

section Quotients

variable {num den : Nat}

lemma ofQuotient_eq (negative : Bool) (num den : Nat) : ofQuotient negative num den =
    if roundedUnits (num * one) den < limit then .finite negative (roundedUnits (num * one) den)
    else .infinite negative :=
  rfl

lemma isFinite_ofQuotient_iff (negative : Bool) (hd : 0 < den) :
    (ofQuotient negative num den).IsFinite ↔ 2 * (num * one) < (greatest + limit) * den := by
  rw [ofQuotient_eq, ← roundedUnits_lt_limit_iff hd]
  split
  · next h => exact iff_of_true (.finite _ _) h
  · next h => exact iff_of_false (not_isFinite_infinite _) h

/-- What is at most half a unit is rounded to zero. -/
lemma roundedUnits_eq_zero (hd : 0 < den) (h : 2 * num ≤ den) : roundedUnits num den = 0 := by
  have hs : spacing 0 = 1 := rfl
  refine roundedUnits_of_isWithinReach hd (Nat.dvd_zero _) ⟨by omega, ?_, fun _ => by simp⟩
  rw [hs]
  omega

lemma ofQuotient_eq_zero (negative : Bool) (hd : 0 < den) (h : 2 * (num * one) ≤ den) :
    ofQuotient negative num den = .finite negative 0 := by
  rw [ofQuotient_eq, roundedUnits_eq_zero hd h, if_pos limit_pos]

lemma greatest_le_limit : greatest ≤ limit :=
  Nat.sub_le _ _

/-- An integer of the size of the limit is read as infinite. -/
lemma ofQuotient_of_limit_le (negative : Bool) (h : limit ≤ num * one) :
    ofQuotient negative num 1 = .infinite negative := by
  have hle := greatest_le_limit
  rw [ofQuotient_eq, if_neg]
  rw [roundedUnits_lt_limit_iff Nat.one_pos]
  omega

lemma two_mul_le_pow {digits places : Nat} (h : 400 + digits.log2 ≤ places) : 2 * (digits * one) ≤ 10 ^ places := by
  obtain ⟨shift, -, hshift, hone⟩ := Decimal.exists_shift
  calc 2 * (digits * one) ≤ 2 * (2 ^ (digits.log2 + 1) * one) :=
        Nat.mul_le_mul_left 2 (Nat.mul_le_mul_right one Nat.lt_log2_self.le)
    _ = 2 ^ digits.log2 * (4 * one) := by rw [Nat.pow_succ]; ring
    _ ≤ 10 ^ digits.log2 * 10 ^ shift := Nat.mul_le_mul (Nat.pow_le_pow_left (by decide) _) hone
    _ = 10 ^ (digits.log2 + shift) := (Nat.pow_add _ _ _).symm
    _ ≤ 10 ^ places := Nat.pow_le_pow_right (by decide) (by omega)

/-- However long a fraction is, the clamp on its exponent does not show. -/
lemma ofDecimal_neg (negative : Bool) (digits places : Nat) :
    ofDecimal negative digits (-(places : Int)) = ofQuotient negative digits (10 ^ places) := by
  have hpos (n : Nat) : 0 < 10 ^ n := Nat.pow_pos (by decide)
  have hclamp : max (min (-(places : Int)) 400) (-(400 + digits.log2 : Nat)) =
      -(min places (400 + digits.log2) : Nat) := by omega
  have hread : ofDecimal negative digits (-(places : Int)) =
      ofQuotient negative digits (10 ^ min places (400 + digits.log2)) := by
    have hzero : (-(min places (400 + digits.log2) : Nat) : Int).toNat = 0 := by omega
    have hneg : (-(-(min places (400 + digits.log2) : Nat) : Int)).toNat = min places (400 + digits.log2) := by omega
    simp only [ofDecimal, hclamp, Nat.pow_eq, hzero, hneg, Nat.pow_zero, Nat.mul_one]
  rw [hread]
  rcases le_total places (400 + digits.log2) with hle | hge
  · rw [min_eq_left hle]
  · rw [min_eq_right hge, ofQuotient_eq_zero negative (hpos _) (two_mul_le_pow le_rfl),
      ofQuotient_eq_zero negative (hpos _) (two_mul_le_pow hge)]

end Quotients

end Binary64

namespace Decimal

open Binary64 Literal

section Layout

variable {decimal : Decimal} {units : Nat} {digits : List Char}

/-- What follows the digits of a whole number, so that its text has a point as well. -/
def wholeText (units : Nat) : List Char :=
  if units % one = 0 then ['.', '0'] else []

lemma isDigits_zero : IsDigits ['0'] := by
  simp [IsDigits]

lemma isDigit_of_mem_zeros {count : Nat} {c : Char} (hc : c ∈ List.replicate count '0') : c.isDigit = true := by
  obtain rfl := List.eq_of_mem_replicate hc
  rfl

lemma isDigits_append_zeros (hd : IsDigits digits) (count : Nat) :
    IsDigits (digits ++ List.replicate count '0') :=
  ⟨List.append_ne_nil_of_left_ne_nil hd.1 _, fun c hc => (List.mem_append.mp hc).elim (hd.2 c) isDigit_of_mem_zeros⟩

lemma isDigits_zeros_append (hd : IsDigits digits) (count : Nat) :
    IsDigits (List.replicate count '0' ++ digits) :=
  ⟨List.append_ne_nil_of_right_ne_nil _ hd.1, fun c hc => (List.mem_append.mp hc).elim isDigit_of_mem_zeros (hd.2 c)⟩

/-- The text has digits before and behind the point, and they are rounded to so many units. -/
def Shows (text : List Char) (units : Nat) : Prop :=
  ∃ whole fraction, text = decimalText whole (some fraction) ∧ IsDigits whole ∧ IsDigits fraction ∧
    roundedUnits (natOfDigits (whole ++ fraction) * one) (10 ^ fraction.length) = units

lemma natOfDigits_zero : natOfDigits ['0'] = 0 :=
  rfl

lemma shows_zeros_behind {count : Nat} (hd : IsDigits digits)
    (h : roundedUnits (natOfDigits digits * 10 ^ count * one) 1 = units) :
    Shows (digits ++ List.replicate count '0' ++ ['.', '0']) units := by
  refine ⟨_, ['0'], rfl, isDigits_append_zeros hd count, isDigits_zero, ?_⟩
  refine (roundedUnits_congr (Nat.pow_pos (by decide)) Nat.one_pos ?_).trans h
  rw [natOfDigits_append, natOfDigits_append, natOfDigits_zeros, natOfDigits_zero, List.length_replicate,
    List.length_singleton]
  ring

lemma shows_zeros_before {count : Nat} (hd : IsDigits digits)
    (h : roundedUnits (natOfDigits digits * one) (10 ^ (count + digits.length)) = units) :
    Shows (['0', '.'] ++ List.replicate count '0' ++ digits) units := by
  refine ⟨['0'], List.replicate count '0' ++ digits, ?_, isDigits_zero, isDigits_zeros_append hd count, ?_⟩
  · simp [decimalText]
  · rw [natOfDigits_append, natOfDigits_append, natOfDigits_zeros, natOfDigits_zero, Nat.mul_zero, Nat.mul_zero,
      Nat.zero_add, Nat.zero_add, List.length_append, List.length_replicate, h]

lemma shows_split {place : Nat} (hd : IsDigits digits) (hpos : 0 < place) (hlt : place < digits.length)
    (h : roundedUnits (natOfDigits digits * one) (10 ^ (digits.length - place)) = units) :
    Shows (digits.take place ++ '.' :: digits.drop place) units := by
  refine ⟨digits.take place, digits.drop place, rfl, ⟨?_, ?_⟩, ⟨?_, ?_⟩, ?_⟩
  · rw [← List.length_pos_iff, List.length_take]
    omega
  · exact fun c hc => hd.2 c (List.mem_of_mem_take hc)
  · rw [← List.length_pos_iff, List.length_drop]
    omega
  · exact fun c hc => hd.2 c (List.mem_of_mem_drop hc)
  · rw [List.take_append_drop, List.length_drop, h]

/-- Laid out with its point in place, a decimal shows the number that it is rounded to. -/
lemma ReadsAs.shows_positional (h : decimal.ReadsAs units) :
    Shows (DecimalStyle.plain.positional (Nat.toDigits 10 decimal.digits) decimal.point ++ wholeText units) units := by
  obtain ⟨hrounded, hwhole⟩ := h
  have hdigits := isDigits_toDigits decimal.digits
  have hcount : digitCount decimal.digits = (Nat.toDigits 10 decimal.digits).length := rfl
  have hplace : decimal.lastPlace = decimal.point - (Nat.toDigits 10 decimal.digits).length := rfl
  rw [hcount] at hwhole
  rw [← natOfDigits_toDigits decimal.digits] at hrounded
  generalize Nat.toDigits 10 decimal.digits = digits at *
  rw [DecimalStyle.positional, wholeText]
  by_cases hle : (digits.length : Int) ≤ decimal.point
  · have hlength : 0 < digits.length := List.length_pos_iff.mpr hdigits.1
    have hmod : units % one = 0 := Nat.mod_eq_zero_of_dvd (hwhole.mp hle)
    have hexponent : decimal.lastPlace.toNat = decimal.point.toNat - digits.length := by omega
    have hscale : (-decimal.lastPlace).toNat = 0 := by omega
    rw [hexponent, hscale] at hrounded
    have hsuffix : DecimalStyle.plain.wholeSuffix.toList = [] := rfl
    rw [if_neg (by omega), if_pos hle, if_pos hmod, hsuffix, List.append_nil]
    exact shows_zeros_behind hdigits hrounded
  · have hmod : ¬units % one = 0 := fun h0 => hle (hwhole.mpr (Nat.dvd_of_mod_eq_zero h0))
    have hexponent : decimal.lastPlace.toNat = 0 := by omega
    rw [hexponent, Nat.pow_zero, Nat.mul_one] at hrounded
    rw [if_neg hmod, List.append_nil]
    by_cases hpoint : decimal.point ≤ 0
    · have hscale : (-decimal.lastPlace).toNat = (-decimal.point).toNat + digits.length := by omega
      rw [if_pos hpoint]
      exact shows_zeros_before hdigits (hscale ▸ hrounded)
    · have hscale : (-decimal.lastPlace).toNat = digits.length - decimal.point.toNat := by omega
      rw [if_neg hpoint, if_neg hle]
      exact shows_split hdigits (by omega) (by omega) (hscale ▸ hrounded)

end Layout

end Decimal

namespace Literal

open Binary64

variable {token : String} {negative : Bool} {whole : List Char} {fraction : Option (List Char)} {x : Binary64}
  {units : Nat}

/-- The token is a number as it is written in rules: a sign or none, digits, and more of them behind a point. -/
def WritesNumber (token : String) (negative : Bool) (whole : List Char) (fraction : Option (List Char)) : Prop :=
  token.toList = signText negative ++ decimalText whole fraction ∧ IsDigits whole ∧
    ∀ digits ∈ fraction, IsDigits digits

/-- The number nearest to what the digits before and behind the point stand for. -/
def nearest (negative : Bool) (whole : List Char) (fraction : Option (List Char)) : Binary64 :=
  ofQuotient negative (natOfDigits (whole ++ fraction.getD [])) (10 ^ (fraction.getD []).length)

section Read

lemma ofNumeral_some (negative : Bool) (whole digits : List Char) :
    ofNumeral negative whole (some digits) = .float (nearest negative whole (some digits)) :=
  congrArg Literal.float (ofDecimal_neg negative _ _)

lemma eq_nearest_of_ofNumeral (h : ofNumeral negative whole fraction = .float x) :
    x = nearest negative whole fraction := by
  cases fraction with
  | some digits => exact (float.inj (h.symm.trans (ofNumeral_some negative whole digits)))
  | none =>
    rw [ofNumeral_none] at h
    split at h
    · simp at h
    · rw [← float.inj h, nearest, Option.getD_none, List.append_nil, List.length_nil]
      exact ofDecimal_neg negative _ 0

lemma writesNumber_of_numeral? (h : numeral? token.toList = some (negative, whole, fraction)) :
    WritesNumber token negative whole fraction := by
  obtain ⟨sign, hs, whole', fraction', ht, hw, hf⟩ :=
    (isSome_numeral?_iff token.toList).mp (by rw [h, Option.isSome_some])
  obtain ⟨negative', rfl⟩ : ∃ negative', sign = signText negative' := by
    rcases List.mem_pair.mp hs with rfl | rfl
    · exact ⟨false, rfl⟩
    · exact ⟨true, rfl⟩
  rw [ht, numeral?_signText negative' hw hf] at h
  simp only [Option.some.injEq, Prod.mk.injEq] at h
  obtain ⟨rfl, rfl, rfl⟩ := h
  exact ⟨ht, hw, hf⟩

/-- What is read as a floating-point number is a number, and the one that is read is the nearest to it. -/
lemma exists_writesNumber (h : ofToken token = .float x) :
    ∃ negative whole fraction, WritesNumber token negative whole fraction ∧ x = nearest negative whole fraction := by
  cases hn : numeral? token.toList with
  | none =>
    unfold ofToken at h
    simp only [hn] at h
    split at h
    · simp at h
    · split at h
      · simp at h
      · split at h
        · simp at h
        · split at h <;> simp at h
  | some numeral =>
    obtain ⟨negative, whole, fraction⟩ := numeral
    rw [ofToken_of_numeral? hn] at h
    exact ⟨negative, whole, fraction, writesNumber_of_numeral? hn, eq_nearest_of_ofNumeral h⟩

lemma ofToken_of_writesNumber {digits : List Char} (h : WritesNumber token negative whole (some digits)) :
    ofToken token = .float (nearest negative whole (some digits)) := by
  have hread : numeral? token.toList = some (negative, whole, some digits) := by
    rw [h.1, numeral?_signText negative h.2.1 h.2.2]
  rw [ofToken_of_numeral? hread, ofNumeral_some]

end Read

section Written

lemma toList_write_finite (negative : Bool) (hu : 0 < units) :
    (DecimalStyle.plain.write (.finite negative units)).toList = signText negative ++
      DecimalStyle.plain.positional (Nat.toDigits 10 (Decimal.shortest .up units).digits)
        (Decimal.shortest .up units).point := by
  have hplace : DecimalStyle.plain.inPlace = none := rfl
  have hmidway : DecimalStyle.plain.midway = .up := rfl
  rw [DecimalStyle.write, String.toList_ofList]
  · simp only [hplace, hmidway, if_true, signText]
  · exact hu.ne'

lemma toList_text_finite (negative : Bool) (units : Nat) : (text (.float (.finite negative units))).toList =
    (DecimalStyle.plain.write (.finite negative units)).toList ++ Decimal.wholeText units := by
  rw [text, isWhole, Decimal.wholeText, String.toList_append]
  by_cases h : units % one = 0
  · simp only [h, decide_true, if_true]
    rfl
  · simp only [h, decide_false, if_false, Bool.false_eq_true]
    rfl

/-- The text of a finite number shows its units behind the sign. -/
lemma exists_toList_text (negative : Bool) (hgrid : OnGrid units) : ∃ shown, Decimal.Shows shown units ∧
    (text (.float (.finite negative units))).toList = signText negative ++ shown := by
  rw [toList_text_finite]
  rcases Nat.eq_zero_or_pos units with rfl | hu
  · have hrounded : roundedUnits (natOfDigits ['0'] * 10 ^ 0 * one) 1 = 0 := by
      rw [Decimal.natOfDigits_zero, Nat.zero_mul, Nat.zero_mul]
      exact roundedUnits_eq_zero Nat.one_pos (by decide)
    refine ⟨_, Decimal.shows_zeros_behind Decimal.isDigits_zero hrounded, ?_⟩
    rw [DecimalStyle.write, String.toList_ofList, Decimal.wholeText, Nat.zero_mod, if_pos rfl]
    cases negative <;> rfl
  · refine ⟨_, (Decimal.shortest_readsAs .up hu hgrid).shows_positional, ?_⟩
    rw [toList_write_finite negative hu, List.append_assoc]

lemma ofToken_text_finite (negative : Bool) (hgrid : OnGrid units) (hlimit : units < limit) :
    ofToken (text (.float (.finite negative units))) = .float (.finite negative units) := by
  obtain ⟨shown, ⟨whole, digits, rfl, hw, hf, hrounded⟩, ht⟩ := exists_toList_text negative hgrid
  have hwrites : WritesNumber (text (.float (.finite negative units))) negative whole (some digits) :=
    ⟨ht, hw, by simpa using hf⟩
  rw [ofToken_of_writesNumber hwrites, nearest, ofQuotient_eq, Option.getD_some, hrounded, if_pos hlimit]

lemma text_infinite (negative : Bool) :
    text (.float (.infinite negative)) = if negative then "-inf" else "inf" := by
  rw [text, isWhole, DecimalStyle.write]
  cases negative <;> rfl

/-- The word for an infinite number is no number. -/
lemma ofToken_text_infinite (negative : Bool) : ofToken (text (.float (.infinite negative))) =
    .string (text (.float (.infinite negative))) := by
  rw [text_infinite]
  cases negative
  · exact (ofToken_eq_string_iff (by decide)).mpr ⟨rfl, by decide⟩
  · exact (ofToken_eq_string_iff (by decide)).mpr ⟨rfl, by decide⟩

end Written

/-- A number that a token is read as is the nearest to what the token stands for. It is finite if that is less than
half way from the greatest number to the limit, and then, and only then, it is read back from its text. The text of
an infinite number is a word, which is read as itself. -/
theorem float_reads_back_iff_finite (h : ofToken token = .float x) :
    ∃ negative whole fraction, WritesNumber token negative whole fraction ∧ x = nearest negative whole fraction ∧
      (x.IsFinite ↔ 2 * (natOfDigits (whole ++ fraction.getD []) * one) <
        (greatest + limit) * 10 ^ (fraction.getD []).length) ∧
      (ofToken (text (.float x)) = .float x ↔ x.IsFinite) ∧
      (¬x.IsFinite → text (.float x) = (if negative then "-inf" else "inf") ∧
        ofToken (text (.float x)) = .string (text (.float x))) := by
  obtain ⟨negative, whole, fraction, hwrites, hx⟩ := exists_writesNumber h
  have hscale : 0 < 10 ^ (fraction.getD []).length := Nat.pow_pos (by decide)
  have hcases : x.IsFinite ∧ ofToken (text (.float x)) = .float x ∨ ¬x.IsFinite ∧ x = .infinite negative := by
    rw [hx, nearest, ofQuotient_eq]
    split
    · next hlimit => exact .inl ⟨.finite _ _, ofToken_text_finite negative (onGrid_roundedUnits hscale) hlimit⟩
    · exact .inr ⟨not_isFinite_infinite negative, rfl⟩
  have hfinite : x.IsFinite ↔ 2 * (natOfDigits (whole ++ fraction.getD []) * one) <
      (greatest + limit) * 10 ^ (fraction.getD []).length := by
    rw [hx]
    exact isFinite_ofQuotient_iff negative hscale
  refine ⟨negative, whole, fraction, hwrites, hx, hfinite, ?_⟩
  rcases hcases with ⟨hyes, hback⟩ | ⟨hno, rfl⟩
  · exact ⟨iff_of_true hback hyes, fun hno => absurd hyes hno⟩
  · have hword := ofToken_text_infinite negative
    exact ⟨iff_of_false (by simp [hword]) hno, fun _ => ⟨text_infinite negative, hword⟩⟩

/-- What `25.411` is read as is not what it stands for, but the nearest number to it. -/
theorem fraction_reads_back : ofToken "25.411" = .float (nearest false ['2', '5'] (some ['4', '1', '1'])) ∧
    ofToken (text (.float (nearest false ['2', '5'] (some ['4', '1', '1'])))) =
      .float (nearest false ['2', '5'] (some ['4', '1', '1'])) := by
  have hwrites : WritesNumber "25.411" false ['2', '5'] (some ['4', '1', '1']) :=
    ⟨by simp [signText, decimalText], by simp [IsDigits], by simp [IsDigits]⟩
  have hfinite : (nearest false ['2', '5'] (some ['4', '1', '1'])).IsFinite := by
    refine (isFinite_ofQuotient_iff false (by decide)).mpr ?_
    have hsmall : 50822 * one < limit := lt_limit_of_le (by decide)
    have hvalue : natOfDigits (['2', '5'] ++ (some ['4', '1', '1']).getD []) = 25411 := rfl
    have hplaces : ((some ['4', '1', '1']).getD []).length = 3 := rfl
    rw [hvalue, hplaces]
    generalize one = unit at *
    omega
  have hread := ofToken_of_writesNumber hwrites
  obtain ⟨-, -, -, -, -, -, hback, -⟩ := float_reads_back_iff_finite hread
  exact ⟨hread, hback.mpr hfinite⟩

/-- A one and zeros. -/
def powerDigits (count : Nat) : List Char :=
  ['1'] ++ List.replicate count '0'

lemma natOfDigits_powerDigits (count : Nat) : natOfDigits (powerDigits count) = 10 ^ count := by
  have hone : natOfDigits ['1'] = 1 := rfl
  rw [powerDigits, natOfDigits_append, natOfDigits_zeros, List.length_replicate, hone, Nat.mul_one, Nat.add_zero]

/-- Powers of ten from the limit on are read as infinite. -/
lemma ofToken_powerDigits {count : Nat} (h : 309 ≤ count) :
    ofToken (String.ofList (powerDigits count)) = .float (.infinite false) := by
  have hdigits : IsDigits (powerDigits count) := Decimal.isDigits_append_zeros (by simp [IsDigits]) count
  have hnone : ∀ more ∈ (none : Option (List Char)), IsDigits more := by simp
  have hread : numeral? (String.ofList (powerDigits count)).toList = some (false, powerDigits count, none) := by
    have hshown := numeral?_signText false hdigits hnone
    rw [decimalText, Option.map_none, Option.getD_none, List.append_nil, signText, if_neg Bool.false_ne_true,
      List.nil_append] at hshown
    rw [String.toList_ofList, hshown]
  have hlarge : ¬signedValue false (powerDigits count) ≤ Number.greatestInt64 := by
    have hpow : 10 ^ 19 ≤ 10 ^ count := Nat.pow_le_pow_right (by decide) (by omega)
    rw [signedValue, if_neg Bool.false_ne_true, natOfDigits_powerDigits, Number.greatestInt64]
    omega
  have hinfinite : ofDecimal false (natOfDigits (powerDigits count)) 0 = .infinite false := by
    obtain ⟨k, hk, hlimit⟩ := Decimal.exists_limit_le
    have hle : limit ≤ 10 ^ count * one :=
      hlimit.trans (Nat.mul_le_mul_right one (Nat.pow_le_pow_right (by decide) (by omega)))
    rw [natOfDigits_powerDigits]
    exact (ofDecimal_neg false _ 0).trans (ofQuotient_of_limit_le false hle)
  rw [ofToken_of_numeral? hread, ofNumeral_none, if_neg (by simp [hlarge]), hinfinite]

/-- An integer beyond the limit is read as infinite, and its text is read as a word. -/
theorem huge_integer_is_lost :
    ofToken (String.ofList (powerDigits 309)) = .float (.infinite false) ∧
    text (.float (.infinite false)) = "inf" ∧
    ofToken "inf" = .string "inf" :=
  ⟨ofToken_powerDigits le_rfl, text_infinite false, (ofToken_eq_string_iff (by decide)).mpr ⟨rfl, by decide⟩⟩

end Literal

end ProseSchema
