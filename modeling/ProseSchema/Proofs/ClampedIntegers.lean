import ProseSchema.Json.Access
import ProseSchema.Proofs.RoundedIntegers

/-!
# Whole numbers within 64 bits

A whole number is read as a signed integer of 64 bits, either exactly or as the end of the range that it lies
beyond. An integer above that range is rounded first, which cannot take it back below the end of the range, since
that end is next to a power of two and rounding keeps the order.
-/

namespace ProseSchema

namespace Binary64

/-- The exact value of a finite number. -/
def value? : Binary64 → Option ℚ
  | .finite negative units => some ((if negative then -(units : ℚ) else units) / one)
  | .infinite _ => none

variable {x : Binary64} {i j : ℤ}

lemma value?_eq_some_iff {negative : Bool} {units : Nat} :
    (finite negative units).value? = some (i : ℚ) ↔ (finite negative units).rank = i * one := by
  have hone : (one : ℚ) ≠ 0 := Nat.cast_ne_zero.mpr one_units_pos.ne'
  rw [value?, Option.some.injEq, div_eq_iff hone, rank]
  cases negative with
  | true => exact_mod_cast Iff.rfl
  | false => exact_mod_cast Iff.rfl

lemma rank_of_value? (h : x.value? = some (i : ℚ)) : x.rank = i * one := by
  cases x with
  | finite negative units => exact value?_eq_some_iff.mp h
  | infinite negative => cases h

lemma truncate_of_rank (h : x.rank = i * one) : x.truncate = i := by
  have hone : (one : ℤ) ≠ 0 := Nat.cast_ne_zero.mpr one_units_pos.ne'
  rw [truncate, h, Int.mul_tdiv_cancel i hone]

lemma isWhole_iff_value? : x.isWhole = true ↔ ∃ i : ℤ, x.value? = some (i : ℚ) := by
  cases x with
  | finite negative units =>
    have hrank : (one : ℤ) ∣ (finite negative units).rank ↔ one ∣ units := by
      cases negative with
      | true => rw [rank, if_pos rfl, Int.dvd_neg, Int.natCast_dvd_natCast]
      | false => rw [rank, if_neg Bool.false_ne_true, Int.natCast_dvd_natCast]
    simp only [value?_eq_some_iff, isWhole, decide_eq_true_eq]
    rw [← Nat.dvd_iff_mod_eq_zero, ← hrank, dvd_iff_exists_eq_mul_left]
  | infinite negative => simp [isWhole, value?]

lemma truncate_ofInt_mono (h : i ≤ j) : (ofInt i).truncate ≤ (ofInt j).truncate := by
  have hone : (0 : ℤ) < one := Nat.cast_pos.mpr one_units_pos
  exact Int.tdiv_le_tdiv hone (rank_ofInt_mono h)

lemma truncate_ofInt (hgrid : OnGrid i.natAbs) (hle : i.natAbs ≤ 2 ^ 64) : (ofInt i).truncate = i := by
  have hplace : (placeOf i.natAbs : ℤ) = i.natAbs * one := by
    rw [placeOf_of_le hle, nearestNat_of_onGrid hgrid, Nat.cast_mul]
  apply truncate_of_rank
  rw [rank_ofInt, hplace]
  split
  · next hi => rw [← Int.neg_mul, Int.ofNat_natAbs_of_nonpos hi.le, Int.neg_neg]
  · next hi => rw [Int.natAbs_of_nonneg (not_lt.mp hi)]

end Binary64

namespace Number

/-- The exact value of a number. -/
def value? : Number → Option ℚ
  | .integer i => some i
  | .float x => x.value?

/-- An integer is read clamped, since one beyond the range is still beyond it when it has been rounded. -/
lemma toInt64_integer (i : ℤ) : (integer i).toInt64 = max (-2 ^ 63) (min i (2 ^ 63 - 1)) := by
  -- Rounding leaves the two powers of two as they are and takes no integer from beyond them to this side.
  have hhigh : (Binary64.ofInt (2 ^ 63)).truncate = 2 ^ 63 :=
    Binary64.truncate_ofInt (Binary64.onGrid_two_pow 63) (by decide)
  have hlow : (Binary64.ofInt (-2 ^ 63)).truncate = -2 ^ 63 :=
    Binary64.truncate_ofInt (Binary64.onGrid_two_pow 63) (by decide)
  simp only [toInt64, toInt64.clamp, Bool.and_eq_true, decide_eq_true_eq]
  rw [leastInt64, greatestInt64]
  by_cases habove : 2 ^ 63 ≤ i
  · have hround := Binary64.truncate_ofInt_mono habove
    rw [hhigh] at hround
    rw [if_neg (by omega)]
    omega
  · by_cases hbelow : i < -2 ^ 63
    · have hround := Binary64.truncate_ofInt_mono hbelow.le
      rw [hlow] at hround
      rw [if_neg (by omega)]
      omega
    · rw [if_pos (by omega)]
      omega

lemma toInt64_of_value? {n : Number} {i : ℤ} (h : n.value? = some (i : ℚ)) :
    n.toInt64 = max (-2 ^ 63) (min i (2 ^ 63 - 1)) := by
  cases n with
  | integer j =>
    obtain rfl : j = i := Int.cast_injective (Option.some.inj h)
    exact toInt64_integer j
  | float x =>
    have htruncate : x.truncate = i := Binary64.truncate_of_rank (Binary64.rank_of_value? h)
    rw [toInt64, toInt64.clamp, htruncate, leastInt64, greatestInt64]
    omega

lemma isWhole_iff {n : Number} : n.isWhole = true ↔ ∃ i : ℤ, n.value? = some (i : ℚ) := by
  cases n with
  | integer j => exact iff_of_true rfl ⟨j, rfl⟩
  | float x => exact Binary64.isWhole_iff_value?

end Number

namespace Json

/-- The numbers typed as integers are those whose exact value is an integer, however they are written, and such a
number is read as that integer, clamped to 64 bits. -/
theorem asInt64_number (n : Number) :
    ((number n).hasType .integer = true ↔ ∃ i : ℤ, n.value? = some (i : ℚ)) ∧
    ∀ i : ℤ, n.value? = some (i : ℚ) → (number n).asInt64 = .ok (max (-2 ^ 63) (min i (2 ^ 63 - 1))) := by
  have htype : (number n).hasType .integer = n.isWhole := rfl
  refine ⟨?_, fun i hi => ?_⟩
  · rw [htype, Number.isWhole_iff]
  · have hwhole : (number n).hasType .integer = true := htype.trans (Number.isWhole_iff.mpr ⟨i, hi⟩)
    rw [asInt64, readAs, if_pos hwhole]
    exact congrArg Except.ok (Number.toInt64_of_value? hi)

/-- The greatest integer that is written without a sign is rounded up to a power of two, which is beyond the range,
and the least number of the range is read from a floating-point number as it is. -/
theorem ends_of_int64_read :
    (Number.integer 18446744073709551615).value? = some ((18446744073709551615 : ℤ) : ℚ) ∧
    (number (.integer 18446744073709551615)).asInt64 = .ok 9223372036854775807 ∧
    (Number.float (.finite true (2 ^ 63 * Binary64.one))).value? = some ((-2 ^ 63 : ℤ) : ℚ) ∧
    (number (.float (.finite true (2 ^ 63 * Binary64.one)))).asInt64 = .ok (-9223372036854775808) := by
  have hgreatest : (Number.integer 18446744073709551615).value? = some ((18446744073709551615 : ℤ) : ℚ) := rfl
  have hleast : (Number.float (.finite true (2 ^ 63 * Binary64.one))).value? = some ((-2 ^ 63 : ℤ) : ℚ) := by
    apply Binary64.value?_eq_some_iff.mpr
    rw [Binary64.rank, if_pos rfl]
    push_cast
    rw [Int.neg_mul]
  exact ⟨hgreatest, (asInt64_number _).2 _ hgreatest, hleast, (asInt64_number _).2 _ hleast⟩

end Json

end ProseSchema
