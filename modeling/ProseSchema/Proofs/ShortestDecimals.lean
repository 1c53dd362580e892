import Mathlib.Data.Nat.Find
import ProseSchema.Numeric.Decimal
import ProseSchema.Proofs.RoundedIntegers

/-!
# Shortest decimals read back

The shortest decimal of a number is looked for among the decimals next to it that are rounded to it. Main
statements: with seventeen digits there is one, the decimal that is found is rounded to the number, and its
digits end before the decimal point exactly if the number is a whole one.
-/

namespace ProseSchema

namespace Decimal

open Binary64

section Powers

variable {units : Nat} {exponent : Int}

lemma pow_shift (exponent : Int) (k : Nat) : 10 ^ (exponent + k).toNat * 10 ^ (-exponent).toNat =
    10 ^ k * 10 ^ exponent.toNat * 10 ^ (-(exponent + k)).toNat := by
  rw [← Nat.pow_add, ← Nat.pow_add, ← Nat.pow_add]
  congr 1
  omega

/-- The number of so many units is below a power of ten. -/
def IsBelow (units : Nat) (exponent : Int) : Prop :=
  units * 10 ^ (-exponent).toNat < one * 10 ^ exponent.toNat

lemma isBelow_add_iff (units : Nat) (exponent : Int) (k : Nat) : IsBelow units (exponent + k) ↔
    units * 10 ^ (-exponent).toNat < 10 ^ k * (one * 10 ^ exponent.toNat) := by
  have hpos (n : Nat) : 0 < 10 ^ n := Nat.pow_pos (by decide)
  have hshift := pow_shift exponent k
  calc IsBelow units (exponent + k) ↔ units * 10 ^ (-(exponent + k)).toNat * 10 ^ (-exponent).toNat <
        one * 10 ^ (exponent + k).toNat * 10 ^ (-exponent).toNat := (Nat.mul_lt_mul_right (hpos _)).symm
    _ ↔ units * 10 ^ (-exponent).toNat * 10 ^ (-(exponent + k)).toNat <
        10 ^ k * (one * 10 ^ exponent.toNat) * 10 ^ (-(exponent + k)).toNat := by
      rw [Nat.mul_assoc one, hshift, Nat.mul_right_comm]
      have : one * (10 ^ k * 10 ^ exponent.toNat * 10 ^ (-(exponent + k)).toNat) =
        10 ^ k * (one * 10 ^ exponent.toNat) * 10 ^ (-(exponent + k)).toNat := by ring
      rw [this]
    _ ↔ _ := Nat.mul_lt_mul_right (hpos _)

lemma lt_pow_digitCount (n : Nat) : n < 10 ^ digitCount n :=
  (Nat.length_toDigits_le_iff (by decide) Nat.length_toDigits_pos).mp le_rfl

lemma pow_le_of_digitCount {n k : Nat} (hn : 0 < n) (h : digitCount n = k + 1) : 10 ^ k ≤ n := by
  rcases Nat.eq_zero_or_pos k with rfl | hk
  · exact hn
  · by_contra hlt
    have hle := (Nat.length_toDigits_le_iff (n := n) (by decide) hk).mpr (not_le.mp hlt)
    rw [digitCount] at h
    omega

lemma digitCount_eq {n k : Nat} (hlow : 10 ^ k ≤ n) (hhigh : n < 10 ^ (k + 1)) : digitCount n = k + 1 := by
  have hle : digitCount n ≤ k + 1 := (Nat.length_toDigits_le_iff (by decide) (Nat.succ_pos k)).mpr hhigh
  have hlt : 10 ^ k < 10 ^ digitCount n := hlow.trans_lt (lt_pow_digitCount n)
  have := (Nat.pow_lt_pow_iff_right (by decide)).mp hlt
  omega

/-- The digits of a multiple of the number tell between which powers of ten the number lies. -/
lemma isBelow_digitCount_iff (units shift k : Nat) :
    IsBelow units (k - shift) ↔ units * 10 ^ shift / one < 10 ^ k := by
  have hadd : (k : Int) - shift = -shift + k := by ring
  have hneg : (-(-(shift : Int))).toNat = shift := by omega
  have hzero : (-(shift : Int)).toNat = 0 := by omega
  rw [hadd, isBelow_add_iff, hneg, hzero, Nat.pow_zero, Nat.mul_one, Nat.div_lt_iff_lt_mul one_units_pos]

lemma exists_shift : ∃ shift : Nat, Nat.pow 10 400 = 10 ^ shift ∧ shift = 400 ∧ 4 * one ≤ 10 ^ shift :=
  ⟨400, by decide +kernel⟩

/-- Numbers of more than three hundred and nine digits are too large. -/
lemma exists_limit_le : ∃ k : Nat, k = 309 ∧ limit ≤ 10 ^ k * one :=
  ⟨309, by decide +kernel⟩

/-- The number lies between the power of ten of its magnitude and the one before. -/
lemma magnitude_bounds (hu : 0 < units) : IsBelow units (magnitude units) ∧ ¬IsBelow units (magnitude units - 1) := by
  obtain ⟨shift, hpow, hshift, hone⟩ := exists_shift
  have hpos : 0 < units * 10 ^ shift / one := by
    refine Nat.div_pos ?_ one_units_pos
    calc one ≤ 4 * one := Nat.le_mul_of_pos_left _ (by decide)
      _ ≤ 10 ^ shift := hone
      _ ≤ units * 10 ^ shift := Nat.le_mul_of_pos_left _ hu
  obtain ⟨k, hk⟩ : ∃ k, digitCount (units * 10 ^ shift / one) = k + 1 :=
    Nat.exists_eq_succ_of_ne_zero (Nat.length_toDigits_pos).ne'
  have hfloor := pow_le_of_digitCount hpos hk
  have hceil := lt_pow_digitCount (units * 10 ^ shift / one)
  rw [hk] at hceil
  have hmagnitude : magnitude units = ((k + 1 : Nat) : Int) - shift := by
    rw [magnitude, hpow, hk, hshift]
    rfl
  have hpred : magnitude units - 1 = (k : Int) - shift := by omega
  constructor
  · rw [hmagnitude, isBelow_digitCount_iff]
    exact hceil
  · rw [hpred, isBelow_digitCount_iff]
    exact not_lt.mpr hfloor

end Powers

section Candidates

variable {midway : MidwayRule} {units count c : Nat}

/-- The exponent of the last digit of the decimals of so many digits. -/
def grid (units count : Nat) : Int :=
  magnitude units - count

/-- The digits of the decimal right below the number, or at it. -/
def low (units count : Nat) : Nat :=
  units * 10 ^ (-grid units count).toNat / (one * 10 ^ (grid units count).toNat)

lemma reachBelow_pos (units : Nat) : 0 < reachBelow units := by
  have hs := spacing_pos units
  rcases reachBelow_cases units with ⟨hr, -⟩ | ⟨hr, -⟩ <;> omega

/-- The ends belong to what is within reach of a number if its significand is even. -/
def reaches (units distance width : Nat) : Bool :=
  if units / spacing units % 2 = 0 then distance ≤ width else distance < width

lemma reaches_iff {distance width : Nat} : reaches units distance width = true ↔
    distance ≤ width ∧ (distance = width → units / spacing units % 2 = 0) := by
  unfold reaches
  split
  · next h => simp [h]
  · next h =>
    simp only [decide_eq_true_eq, h, imp_false]
    exact Nat.lt_iff_le_and_ne

variable {num den : Nat}

lemma isWithinReach_iff_of_le (hd : 0 < den) (h : num ≤ units * den) : IsWithinReach num den units ↔
    reaches units (4 * (units * den) - 4 * num) (reachBelow units * den) = true := by
  have hstep : 0 < spacing units * den := Nat.mul_pos (spacing_pos units) hd
  have hreach : 0 < reachBelow units * den := Nat.mul_pos (reachBelow_pos units) hd
  rw [reaches_iff]
  constructor
  · rintro ⟨hbelow, habove, heven⟩
    exact ⟨by omega, fun he => heven (.inl (by omega))⟩
  · rintro ⟨hle, heven⟩
    exact ⟨by omega, by omega, fun htie => heven (by omega)⟩

lemma isWithinReach_iff_of_ge (hd : 0 < den) (h : units * den ≤ num) : IsWithinReach num den units ↔
    reaches units (4 * num - 4 * (units * den)) (2 * (spacing units * den)) = true := by
  have hstep : 0 < spacing units * den := Nat.mul_pos (spacing_pos units) hd
  have hreach : 0 < reachBelow units * den := Nat.mul_pos (reachBelow_pos units) hd
  rw [reaches_iff]
  constructor
  · rintro ⟨hbelow, habove, heven⟩
    exact ⟨by omega, fun he => heven (.inr (by omega))⟩
  · rintro ⟨hle, heven⟩
    exact ⟨by omega, by omega, fun htie => heven (by omega)⟩

lemma low_bounds (units count : Nat) :
    low units count * 10 ^ (grid units count).toNat * one ≤ units * 10 ^ (-grid units count).toNat ∧
    units * 10 ^ (-grid units count).toNat < (low units count + 1) * 10 ^ (grid units count).toNat * one := by
  have hcell : 0 < one * 10 ^ (grid units count).toNat := Nat.mul_pos one_units_pos (Nat.pow_pos (by decide))
  have hle := (Nat.le_div_iff_mul_le hcell).mp (le_refl (low units count))
  have hlt := (Nat.div_lt_iff_lt_mul hcell).mp (Nat.lt_succ_self (low units count))
  rw [Nat.mul_assoc, Nat.mul_assoc, Nat.mul_comm _ one]
  exact ⟨hle, hlt⟩

lemma grid_add (units count : Nat) : grid units count + count = magnitude units := by
  rw [grid]
  omega

lemma low_lt (hu : 0 < units) (count : Nat) : low units count < 10 ^ count := by
  have hcell : 0 < one * 10 ^ (grid units count).toNat := Nat.mul_pos one_units_pos (Nat.pow_pos (by decide))
  have hbelow := (magnitude_bounds hu).1
  rw [← grid_add units count, isBelow_add_iff] at hbelow
  exact (Nat.div_lt_iff_lt_mul hcell).mpr hbelow

lemma pow_le_low (hu : 0 < units) (k : Nat) : 10 ^ k ≤ low units (k + 1) := by
  have hcell : 0 < one * 10 ^ (grid units (k + 1)).toNat :=
    Nat.mul_pos one_units_pos (Nat.pow_pos (by decide))
  have hbelow := (magnitude_bounds hu).2
  have hpred : magnitude units - 1 = grid units (k + 1) + k := by
    rw [grid]
    omega
  rw [hpred, isBelow_add_iff, not_lt] at hbelow
  exact (Nat.le_div_iff_mul_le hcell).mpr hbelow

/-- The candidates are the decimals on both sides of the number that are within reach of it. -/
lemma mem_candidates_iff : c ∈ candidates midway units count ↔ (c = low units count ∨ c = low units count + 1) ∧
    IsWithinReach (c * 10 ^ (grid units count).toNat * one) (10 ^ (-grid units count).toNat) units := by
  have hscale : 0 < 10 ^ (-grid units count).toNat := Nat.pow_pos (by decide)
  obtain ⟨hle, hlt⟩ := low_bounds units count
  have hquot : 4 * units * 10 ^ (-grid units count).toNat / (4 * one * 10 ^ (grid units count).toNat) =
      low units count := by
    rw [low, Nat.mul_assoc, Nat.mul_assoc, Nat.mul_div_mul_left _ _ (by decide)]
  have hcell (n : Nat) : n * (4 * one * 10 ^ (grid units count).toNat) =
      4 * (n * 10 ^ (grid units count).toNat * one) := by ring
  have hmem (a b : List Nat) (p : Bool) : c ∈ (if p then a ++ b else b ++ a) ↔ c ∈ a ∨ c ∈ b := by
    cases p <;> simp [or_comm]
  have hone (n : Nat) (p : Bool) : c ∈ (if p then [n] else []) ↔ c = n ∧ p = true := by
    cases p <;> simp
  have hbelow : (if (decide (spacing units ≠ 1) && decide (units = 2 ^ units.log2)) = true then
        spacing units * 10 ^ (-grid units count).toNat else
        2 * spacing units * 10 ^ (-grid units count).toNat) = reachBelow units * 10 ^ (-grid units count).toNat := by
    rw [reachBelow, ite_mul]
    simp
  have hreachLow := isWithinReach_iff_of_le hscale hle
  have hreachHigh := isWithinReach_iff_of_ge hscale hlt.le
  unfold candidates
  simp only [Nat.pow_eq]
  rw [← grid]
  generalize one = o at *
  simp only [hquot, hcell, hmem, hone, hbelow]
  rw [or_and_right]
  refine or_congr (and_congr_right ?_) (and_congr_right ?_)
  · rintro rfl
    rw [hreachLow, reaches, Nat.mul_assoc 4]
  · rintro rfl
    rw [hreachHigh, reaches, Nat.mul_assoc 4, Nat.mul_assoc 2]

/-- Of two quotients on both sides of a number, one is within reach of it if they are closer to each other than
the numbers are, and closer than half of that at a power of two. -/
lemma isWithinReach_or {num num' cell : Nat} (hd : 0 < den) (hle : num ≤ units * den) (hlt : units * den < num')
    (hnext : num' = num + cell) (hclose : cell < spacing units * den)
    (hpower : reachBelow units = spacing units → 2 * cell < spacing units * den) :
    IsWithinReach num den units ∨ IsWithinReach num' den units := by
  rcases reachBelow_cases units with ⟨hr, -⟩ | ⟨hr, -⟩
  · have hreach : reachBelow units * den = 2 * (spacing units * den) := by rw [hr, Nat.mul_assoc]
    by_cases hnear : 2 * (units * den) < 2 * num + spacing units * den
    · exact .inl ⟨by omega, by omega, by omega⟩
    · exact .inr ⟨by omega, by omega, by omega⟩
  · -- Below a power of two there is less room, but what lies above is near enough.
    have hhalf := hpower hr
    have hpos : 0 < reachBelow units * den := Nat.mul_pos (reachBelow_pos units) hd
    exact .inr ⟨by omega, by omega, by omega⟩

/-- What goes ten to the sixteenth times into a number is smaller than the spacing there, and at a power of two
smaller than half of it. -/
lemma lt_spacing_of_pow_le {cell : Nat} (hd : 0 < den) (hcell : 10 ^ 16 * cell ≤ units * den) :
    cell < spacing units * den ∧ (reachBelow units = spacing units → 2 * cell < spacing units * den) := by
  have hspacing := Nat.mul_lt_mul_of_pos_right (lt_spacing_mul units) hd
  rw [Nat.mul_right_comm] at hspacing
  constructor
  · by_contra hge
    omega
  · intro hr
    rcases reachBelow_cases units with ⟨hr', -⟩ | ⟨-, k, hk, hunits⟩
    · have := spacing_pos units
      omega
    · have hhalf : units * den = spacing units * den * 2 ^ 52 := by
        calc units * den = 2 ^ k * 2 ^ 53 * den := congrArg (· * den) hunits
          _ = 2 ^ (k + 1) * den * 2 ^ 52 := by ring
          _ = spacing units * den * 2 ^ 52 := by rw [hk]
      omega

/-- Seventeen digits suffice. -/
lemma exists_mem_candidates (midway : MidwayRule) (hu : 0 < units) : ∃ c, c ∈ candidates midway units 17 := by
  obtain ⟨hle, hlt⟩ := low_bounds units 17
  have hscale : 0 < 10 ^ (-grid units 17).toNat := Nat.pow_pos (by decide)
  have hnext : (low units 17 + 1) * 10 ^ (grid units 17).toNat * one =
      low units 17 * 10 ^ (grid units 17).toNat * one + 10 ^ (grid units 17).toNat * one := by
    rw [Nat.succ_mul, Nat.add_mul]
  have hcell : 10 ^ 16 * (10 ^ (grid units 17).toNat * one) ≤ units * 10 ^ (-grid units 17).toNat := by
    refine le_trans ?_ hle
    rw [Nat.mul_assoc (low units 17)]
    exact Nat.mul_le_mul_right _ (pow_le_low hu 16)
  obtain ⟨hclose, hpower⟩ := lt_spacing_of_pow_le hscale hcell
  rcases isWithinReach_or hscale hle hlt hnext hclose hpower with h | h
  · exact ⟨low units 17, mem_candidates_iff.mpr ⟨.inl rfl, h⟩⟩
  · exact ⟨low units 17 + 1, mem_candidates_iff.mpr ⟨.inr rfl, h⟩⟩

/-- The digits of a whole number are a candidate. -/
lemma mem_candidates_of_dvd (midway : MidwayRule) (h : one ∣ units) (hm : magnitude units = count) :
    units / one ∈ candidates midway units count := by
  have hgrid : grid units count = 0 := by
    rw [grid]
    omega
  have hlow : low units count = units / one := by simp [low, hgrid]
  rw [mem_candidates_iff, hlow, hgrid]
  refine ⟨.inl rfl, ?_⟩
  have hself := isWithinReach_mul Nat.one_pos units
  simpa [Nat.div_mul_cancel h] using hself

lemma candidate_bounds (hu : 0 < units) {k : Nat} (hc : c ∈ candidates midway units (k + 1)) :
    10 ^ k ≤ c ∧ c ≤ 10 ^ (k + 1) := by
  have hfloor := pow_le_low hu k
  have hceil := low_lt hu (k + 1)
  rcases (mem_candidates_iff.mp hc).1 with rfl | rfl
  · exact ⟨hfloor, hceil.le⟩
  · exact ⟨hfloor.trans (Nat.le_succ _), hceil⟩

end Candidates

section Shortest

variable {units : Nat}

/-- The decimal of a candidate. One that is a power of ten has a digit too many and is written as a one. -/
def ofCandidate (units count c : Nat) : Decimal :=
  if c = 10 ^ count then ⟨1, magnitude units + 1⟩ else ⟨c, magnitude units⟩

/-- The shortest decimal is that of a candidate, and with fewer digits there is none. -/
lemma exists_shortest_eq (midway : MidwayRule) (hu : 0 < units) : ∃ k c, c ∈ candidates midway units (k + 1) ∧
    (∀ j < k, candidates midway units (j + 1) = []) ∧ shortest midway units = ofCandidate units (k + 1) c := by
  have heq : shortest midway units = ((List.range' 1 17).findSome? fun count =>
      (candidates midway units count).head?.map (ofCandidate units count)).getD ⟨0, magnitude units⟩ := by
    simp only [shortest, Nat.pow_eq]
    rfl
  cases hfound : (List.range' 1 17).findSome? fun count =>
      (candidates midway units count).head?.map (ofCandidate units count) with
  | none =>
    obtain ⟨c, hc⟩ := exists_mem_candidates midway hu
    have hnone := List.findSome?_eq_none_iff.mp hfound 17 (by decide)
    rw [Option.map_eq_none_iff, List.head?_eq_none_iff] at hnone
    rw [hnone] at hc
    exact absurd hc List.not_mem_nil
  | some decimal =>
    obtain ⟨before, count, after, hsplit, hd, hbefore⟩ := List.findSome?_eq_some_iff.mp hfound
    obtain ⟨k, -, rfl, hrest⟩ := List.range'_eq_append_iff.mp hsplit
    obtain ⟨hcount, -, -⟩ := List.range'_eq_cons_iff.mp hrest.symm
    obtain rfl : count = k + 1 := by omega
    obtain ⟨c, hhead, rfl⟩ := Option.map_eq_some_iff.mp hd
    refine ⟨k, c, List.mem_of_head? hhead, fun j hj => ?_, ?_⟩
    · have hnone := hbefore (j + 1) (List.mem_range'_1.mpr (by omega))
      rwa [Option.map_eq_none_iff, List.head?_eq_none_iff] at hnone
    · rw [heq, hfound, Option.getD_some]

/-- The exponent of the last digit. -/
def lastPlace (decimal : Decimal) : Int :=
  decimal.point - digitCount decimal.digits

/-- The decimal is rounded to the number, and its digits end before the point if the number is a whole one. -/
structure ReadsAs (decimal : Decimal) (units : Nat) : Prop where
  rounded : roundedUnits (decimal.digits * 10 ^ decimal.lastPlace.toNat * one) (10 ^ (-decimal.lastPlace).toNat) = units
  whole : digitCount decimal.digits ≤ decimal.point ↔ one ∣ units

lemma ofCandidate_rounded {midway : MidwayRule} {k c : Nat} (hu : 0 < units) (hgrid : OnGrid units)
    (hc : c ∈ candidates midway units (k + 1)) :
    roundedUnits ((ofCandidate units (k + 1) c).digits * 10 ^ (ofCandidate units (k + 1) c).lastPlace.toNat * one)
      (10 ^ (-(ofCandidate units (k + 1) c).lastPlace).toNat) = units := by
  have hscale (e : Int) : 0 < 10 ^ (-e).toNat := Nat.pow_pos (by decide)
  have hrounded := roundedUnits_of_isWithinReach (hscale _) hgrid (mem_candidates_iff.mp hc).2
  unfold ofCandidate
  split
  · next hcarry =>
    have hplace : lastPlace ⟨1, magnitude units + 1⟩ = grid units (k + 1) + (k + 1 : Nat) := by
      have hone : digitCount 1 = 1 := rfl
      rw [lastPlace, grid_add, hone]
      exact Int.add_sub_cancel _ _
    rw [hplace]
    refine (roundedUnits_congr (hscale _) (hscale _) ?_).trans hrounded
    have hshift := pow_shift (grid units (k + 1)) (k + 1)
    rw [hcarry, Nat.one_mul, Nat.mul_right_comm, hshift, Nat.mul_right_comm]
  · next hne =>
    obtain ⟨hlow, hhigh⟩ := candidate_bounds hu hc
    have hplace : lastPlace ⟨c, magnitude units⟩ = grid units (k + 1) := by
      rw [lastPlace, digitCount_eq hlow (lt_of_le_of_ne hhigh hne), grid]
    rw [hplace]
    exact hrounded

lemma one_dvd_of_rounded {n : Nat} (h : roundedUnits (n * one) 1 = units) : one ∣ units := by
  obtain ⟨k, hk, -⟩ := exists_two_pow_eq
  rw [hk, roundedUnits_mul_two_pow] at h
  rw [hk, ← h]
  exact Nat.dvd_mul_left _ _

lemma magnitude_pos (hu : 0 < units) (h : one ∣ units) : 0 < magnitude units := by
  by_contra hneg
  have hbelow := (magnitude_bounds hu).1
  have hzero : (magnitude units).toNat = 0 := by omega
  simp only [IsBelow, hzero, Nat.pow_zero, Nat.mul_one] at hbelow
  have hle : units ≤ units * 10 ^ (-magnitude units).toNat := Nat.le_mul_of_pos_right _ (Nat.pow_pos (by decide))
  exact absurd (Nat.le_of_dvd hu h) (by omega)

/-- The shortest decimal reads back. -/
theorem shortest_readsAs (midway : MidwayRule) (hu : 0 < units) (hgrid : OnGrid units) :
    (shortest midway units).ReadsAs units := by
  obtain ⟨k, c, hc, hfewer, heq⟩ := exists_shortest_eq midway hu
  have hrounded := ofCandidate_rounded hu hgrid hc
  rw [heq]
  refine ⟨hrounded, fun hle => ?_, fun hdvd => ?_⟩
  · have hzero : (-(ofCandidate units (k + 1) c).lastPlace).toNat = 0 := by
      rw [lastPlace]
      omega
    rw [hzero, Nat.pow_zero] at hrounded
    exact one_dvd_of_rounded hrounded
  · have hpos := magnitude_pos hu hdvd
    unfold ofCandidate
    split
    · have hone : digitCount 1 = 1 := rfl
      dsimp only
      omega
    · next hne =>
      obtain ⟨hlow, hhigh⟩ := candidate_bounds hu hc
      have hcount := digitCount_eq hlow (lt_of_le_of_ne hhigh hne)
      dsimp only
      -- With as many digits as there are before the point, the number itself is a candidate.
      by_contra hlt
      obtain ⟨m, hm⟩ : ∃ m : Nat, magnitude units = (m + 1 : Nat) := ⟨(magnitude units).toNat - 1, by omega⟩
      have hmem := mem_candidates_of_dvd midway hdvd hm
      rw [hfewer m (by omega)] at hmem
      exact absurd hmem List.not_mem_nil

end Shortest

end Decimal

end ProseSchema
