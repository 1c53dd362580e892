import Mathlib.Tactic.NormNum
import ProseSchema.Json.Read
import ProseSchema.Proofs.Rounding

/-!
# Rounded integers

Integers that are rounded to floating-point numbers. They keep their order, and up to the fifty-third power of two
they stay as they are. Below the next power of two, twice an odd number is still rounded to itself and shares its
place with no other integer, as the odd integers beside it go to the other side.
-/

namespace ProseSchema

lemma Json.isInteger64_iff (i : Int) :
    isInteger64 i = true ↔ Number.leastInt64 ≤ i ∧ i < 18446744073709551616 := by
  simp [isInteger64]

namespace Binary64

/-- The natural number that a natural number is rounded to, were there no limit. -/
def nearestNat (n : Nat) : Nat :=
  roundedUnits n 1

section Naturals

variable {n m : Nat}

lemma nearestNat_mono (h : n ≤ m) : nearestNat n ≤ nearestNat m :=
  roundedUnits_mono Nat.one_pos Nat.one_pos (by omega)

lemma nearestNat_of_onGrid (h : OnGrid n) : nearestNat n = n := by
  have hself := roundedUnits_mul Nat.one_pos h
  rwa [Nat.mul_one] at hself

lemma nearestNat_two_pow (k : Nat) : nearestNat (2 ^ k) = 2 ^ k :=
  nearestNat_of_onGrid (onGrid_two_pow k)

lemma onGrid_nearestNat (n : Nat) : OnGrid (nearestNat n) :=
  onGrid_roundedUnits Nat.one_pos

lemma onGrid_of_le (h : n ≤ 2 ^ 53) : OnGrid n := by
  have hgrid := onGrid_mul (k := 0) h (.inl rfl)
  rwa [Nat.pow_zero, Nat.one_mul] at hgrid

lemma nearestNat_of_le (h : n ≤ 2 ^ 53) : nearestNat n = n :=
  nearestNat_of_onGrid (onGrid_of_le h)

lemma nearestNat_pos (h : 0 < n) : 0 < nearestNat n := by
  calc 0 < 1 := Nat.one_pos
    _ = nearestNat 1 := (nearestNat_of_le (by decide)).symm
    _ ≤ nearestNat n := nearestNat_mono h

lemma IsNearestEven.mul_right {num den whole : Nat} (h : IsNearestEven num den whole) {c : Nat} (hc : 0 < c) :
    IsNearestEven (num * c) (den * c) whole := by
  have hbelow := Nat.mul_le_mul_right c h.below
  have habove := Nat.mul_le_mul_right c h.above
  refine ⟨by linarith, by linarith, fun htie => h.even ?_⟩
  refine htie.imp (fun he => ?_) (fun he => ?_)
  · exact Nat.eq_of_mul_eq_mul_right hc (by linarith)
  · exact Nat.eq_of_mul_eq_mul_right hc (by linarith)

lemma spacing_mul_two_pow (hn : 2 ^ 52 ≤ n) (k : Nat) : spacing (n * 2 ^ k) = spacing n * 2 ^ k := by
  have hpos : n ≠ 0 := by omega
  have hlog : 52 ≤ n.log2 := (Nat.le_log2 hpos).mpr hn
  rw [spacing_eq n, ← Nat.pow_add]
  refine spacing_eq_two_pow ?_ (.inr ?_)
  · calc n * 2 ^ k < 2 ^ (n.log2 + 1) * 2 ^ k := Nat.mul_lt_mul_of_pos_right Nat.lt_log2_self (Nat.two_pow_pos k)
      _ = 2 ^ (n.log2 - 52 + k) * 2 ^ 53 := by
        rw [← Nat.pow_add, ← Nat.pow_add]
        congr 1
        omega
  · calc 2 ^ (n.log2 - 52 + k) * 2 ^ 52 = 2 ^ n.log2 * 2 ^ k := by
          rw [← Nat.pow_add, ← Nat.pow_add]
          congr 1
          omega
      _ ≤ n * 2 ^ k := Nat.mul_le_mul_right _ (Nat.log2_self_le hpos)

lemma onGrid_mul_two_pow (hn : n < 2 ^ 53) (k : Nat) : OnGrid (n * 2 ^ k) := by
  have hdvd : spacing (n * 2 ^ k) ∣ 2 ^ k := by
    refine Nat.pow_dvd_pow 2 ?_
    rcases Nat.eq_zero_or_pos (n * 2 ^ k) with h0 | hpos
    · simp [h0]
    · have hlt : n * 2 ^ k < 2 ^ (53 + k) := by
        rw [Nat.pow_add]
        exact Nat.mul_lt_mul_of_pos_right hn (Nat.two_pow_pos k)
      have hlog := (Nat.log2_lt hpos.ne').mpr hlt
      omega
  exact hdvd.trans (Nat.dvd_mul_left _ _)

/-- Whole numbers are rounded alike in units of the size of any power of two. -/
lemma roundedUnits_mul_two_pow (n k : Nat) : roundedUnits (n * 2 ^ k) 1 = nearestNat n * 2 ^ k := by
  rcases lt_or_ge n (2 ^ 53) with hlt | hge
  · rw [nearestNat_of_le hlt.le]
    exact nearestNat_of_onGrid (onGrid_mul_two_pow hlt k)
  · have hs := spacing_mul_two_pow ((Nat.pow_le_pow_right Nat.two_pos (by decide)).trans hge) k
    have hpos : 0 < 1 * spacing n := Nat.mul_pos Nat.one_pos (spacing_pos n)
    have hnear : IsNearestEven n (1 * spacing n) (roundHalfEven n (1 * spacing n)) := isNearestEven_roundHalfEven hpos
    have hpos' : 0 < 1 * spacing n * 2 ^ k := Nat.mul_pos hpos (Nat.two_pow_pos k)
    rw [roundedUnits, nearestNat, roundedUnits, Nat.div_one, Nat.div_one, hs, ← Nat.mul_assoc,
      roundHalfEven_eq hpos' (hnear.mul_right (Nat.two_pow_pos k)), Nat.mul_right_comm]

end Naturals

/-- No other natural number is rounded to the number that this one is rounded to. -/
def IsToldApart (n : Nat) : Prop :=
  n < 2 ^ 53 ∨ n < 2 ^ 54 ∧ n % 4 = 2

instance : DecidablePred IsToldApart := fun _ =>
  inferInstanceAs (Decidable (_ ∨ _))

section ToldApart

variable {n m : Nat}

/-- Between the fifty-third power of two and the next one, numbers are two apart. -/
lemma exists_nearestNat_eq (hlow : 2 ^ 53 ≤ n) (hhigh : n < 2 ^ 54) :
    ∃ w, nearestNat n = 2 * w ∧ IsNearestEven n 2 w := by
  have hs : spacing n = 2 := spacing_eq_two_pow (k := 1) (by omega) (.inr (by omega))
  refine ⟨roundHalfEven n 2, ?_, isNearestEven_roundHalfEven Nat.two_pos⟩
  rw [nearestNat, roundedUnits, Nat.div_one, hs, Nat.one_mul]

lemma nearestNat_lt_succ (h : IsToldApart n ∨ IsToldApart (n + 1)) : nearestNat n < nearestNat (n + 1) := by
  rcases lt_or_ge n (2 ^ 53) with hsmall | hlarge
  · rw [nearestNat_of_le hsmall.le, nearestNat_of_le hsmall]
    exact Nat.lt_succ_self n
  · -- One of the two numbers is odd and goes to a multiple of four, and the other one is none.
    have hbound : n + 1 < 2 ^ 54 := by
      simp only [IsToldApart] at h
      omega
    have hmod : n % 4 = 2 ∨ (n + 1) % 4 = 2 := by
      simp only [IsToldApart] at h
      omega
    obtain ⟨w, hw, hbelow, habove, heven⟩ := exists_nearestNat_eq hlarge (by omega)
    obtain ⟨w', hw', hbelow', habove', heven'⟩ := exists_nearestNat_eq (n := n + 1) (by omega) hbound
    rw [hw, hw']
    omega

lemma eq_of_nearestNat_eq (h : IsToldApart n) (he : nearestNat m = nearestNat n) : m = n := by
  rcases lt_trichotomy m n with hlt | heq | hgt
  · obtain ⟨k, rfl⟩ := Nat.exists_eq_succ_of_ne_zero (Nat.ne_zero_of_lt hlt)
    have hle : nearestNat m ≤ nearestNat k := nearestNat_mono (Nat.lt_succ_iff.mp hlt)
    exact absurd he (hle.trans_lt (nearestNat_lt_succ (.inr h))).ne
  · exact heq
  · have hle : nearestNat (n + 1) ≤ nearestNat m := nearestNat_mono hgt
    exact absurd he ((nearestNat_lt_succ (.inl h)).trans_le hle).ne'

/-- From the fifty-fourth power of two on, what is right below a number is rounded to it. -/
lemma nearestNat_pred (hn : 2 ^ 54 ≤ n) (hgrid : OnGrid n) : nearestNat (n - 1) = n := by
  have hlog : 54 ≤ n.log2 := (Nat.le_log2 (by omega)).mpr hn
  have hs : 4 ≤ spacing n := by
    rw [spacing_eq]
    calc 4 = 2 ^ 2 := rfl
      _ ≤ 2 ^ (n.log2 - 52) := Nat.pow_le_pow_right Nat.two_pos (by omega)
  refine roundedUnits_of_isWithinReach Nat.one_pos hgrid ⟨?_, by omega, ?_⟩
  · rcases reachBelow_cases n with ⟨hr, -⟩ | ⟨hr, -⟩ <;> rw [hr] <;> omega
  · rcases reachBelow_cases n with ⟨hr, -⟩ | ⟨-, k, hk, hpow⟩
    · rw [hr]
      omega
    · have heven : n / spacing n = 2 ^ 52 := by
        refine Nat.div_eq_of_eq_mul_right (spacing_pos n) ?_
        calc n = 2 ^ k * 2 ^ 53 := hpow
          _ = 2 ^ (k + 1) * 2 ^ 52 := by ring
          _ = spacing n * 2 ^ 52 := by rw [hk]
      intro _
      rw [heven]
      rfl

/-- A number that is not told apart shares what it is rounded to with another one. -/
lemma exists_nearestNat_eq_of_not (h : ¬IsToldApart n) (hn : n ≤ 2 ^ 63) :
    ∃ m ≠ n, m ≤ 2 ^ 63 ∧ nearestNat m = nearestNat n := by
  obtain ⟨hlow, hmod⟩ : 2 ^ 53 ≤ n ∧ (n < 2 ^ 54 → n % 4 ≠ 2) := by
    simp only [IsToldApart] at h
    omega
  by_cases hself : nearestNat n = n
  · rcases lt_or_ge n (2 ^ 54) with hlt | hge
    · obtain ⟨w, hw, hbelow, habove, heven⟩ := exists_nearestNat_eq hlow hlt
      obtain ⟨w', hw', hbelow', habove', heven'⟩ := exists_nearestNat_eq (n := n + 1) (by omega) (by omega)
      refine ⟨n + 1, by omega, by omega, ?_⟩
      omega
    · refine ⟨n - 1, by omega, by omega, ?_⟩
      rw [nearestNat_pred hge (hself ▸ onGrid_nearestNat n), hself]
  · refine ⟨nearestNat n, hself, ?_, nearestNat_of_onGrid (onGrid_nearestNat n)⟩
    calc nearestNat n ≤ nearestNat (2 ^ 63) := nearestNat_mono hn
      _ = 2 ^ 63 := nearestNat_two_pow 63

end ToldApart

section Places

variable {n m : Nat} {i j : Int}

/-- The place of a rounded natural number, in units. -/
def placeOf (n : Nat) : Nat :=
  min (nearestNat n * one) limit

lemma exists_two_pow_eq : ∃ k, one = 2 ^ k ∧ limit = 2 ^ (k + 1024) :=
  ⟨1074, by decide +kernel⟩

lemma one_units_pos : 0 < one := by
  obtain ⟨k, hone, -⟩ := exists_two_pow_eq
  rw [hone]
  exact Nat.two_pow_pos k

lemma limit_pos : 0 < limit := by
  obtain ⟨k, -, hlimit⟩ := exists_two_pow_eq
  rw [hlimit]
  exact Nat.two_pow_pos (k + 1024)

lemma ofInt_eq (i : Int) : ofInt i = ofUnits (decide (i < 0)) (i.natAbs * one) 1 :=
  rfl

lemma rank_ofInt (i : Int) :
    (ofInt i).rank = if i < 0 then -(placeOf i.natAbs : Int) else (placeOf i.natAbs : Int) := by
  obtain ⟨k, hk, -⟩ := exists_two_pow_eq
  rw [ofInt_eq, rank_ofUnits, placeOf, hk, roundedUnits_mul_two_pow]
  simp only [decide_eq_true_eq, Nat.cast_min]

lemma placeOf_mono (h : n ≤ m) : placeOf n ≤ placeOf m :=
  min_le_min_right limit (Nat.mul_le_mul_right one (nearestNat_mono h))

/-- Rounding keeps the order of integers. -/
lemma rank_ofInt_mono (h : i ≤ j) : (ofInt i).rank ≤ (ofInt j).rank := by
  rw [rank_ofInt, rank_ofInt]
  split
  · next hi =>
    split
    · next hj =>
      have hle : placeOf j.natAbs ≤ placeOf i.natAbs := placeOf_mono (by omega)
      omega
    · omega
  · next hi =>
    have hle : placeOf i.natAbs ≤ placeOf j.natAbs := placeOf_mono (by omega)
    rw [if_neg (by omega)]
    omega

lemma lt_limit_of_le {n : Nat} (h : n ≤ 2 ^ 64) : n * one < limit := by
  obtain ⟨k, hone, hlimit⟩ := exists_two_pow_eq
  calc n * one ≤ 2 ^ 64 * one := Nat.mul_le_mul_right one h
    _ = 2 ^ (64 + k) := by rw [hone, Nat.pow_add]
    _ < 2 ^ (k + 1024) := Nat.pow_lt_pow_right (by decide) (by omega)
    _ = limit := hlimit.symm

lemma placeOf_of_le (h : n ≤ 2 ^ 64) : placeOf n = nearestNat n * one := by
  have hle : nearestNat n ≤ 2 ^ 64 :=
    calc nearestNat n ≤ nearestNat (2 ^ 64) := nearestNat_mono h
      _ = 2 ^ 64 := nearestNat_two_pow 64
  exact min_eq_left (lt_limit_of_le hle).le

lemma placeOf_pos (h : 0 < n) : 0 < placeOf n :=
  lt_min (Nat.mul_pos (nearestNat_pos h) one_units_pos) limit_pos

lemma eq_of_placeOf_eq (h : IsToldApart n) (he : placeOf m = placeOf n) : m = n := by
  have hn : n ≤ 2 ^ 64 := by
    simp only [IsToldApart] at h
    omega
  apply eq_of_nearestNat_eq h
  apply Nat.eq_of_mul_eq_mul_right one_units_pos
  have hlt : placeOf m < limit := by
    rw [he]
    calc placeOf n ≤ placeOf (2 ^ 64) := placeOf_mono hn
      _ = 2 ^ 64 * one := by rw [placeOf_of_le le_rfl, nearestNat_two_pow]
      _ < limit := lt_limit_of_le le_rfl
  have hmin : placeOf m = nearestNat m * one := min_eq_left ((min_lt_iff.mp hlt).resolve_right (lt_irrefl _)).le
  rw [← hmin, he, placeOf_of_le hn]

lemma eq_of_rank_ofInt_eq (h : IsToldApart i.natAbs) (he : (ofInt j).rank = (ofInt i).rank) : j = i := by
  rw [rank_ofInt, rank_ofInt] at he
  split at he
  · next hj =>
    have hpos : 0 < placeOf j.natAbs := placeOf_pos (by omega)
    split at he
    · have habs : j.natAbs = i.natAbs := eq_of_placeOf_eq h (by omega)
      omega
    · omega
  · next hj =>
    split at he
    · next hi =>
      have hpos : 0 < placeOf i.natAbs := placeOf_pos (by omega)
      omega
    · have habs : j.natAbs = i.natAbs := eq_of_placeOf_eq h (by omega)
      omega

lemma exists_rank_ofInt_eq_of_not (h : ¬IsToldApart i.natAbs) (hlow : Number.leastInt64 ≤ i)
    (hhigh : i ≤ Number.greatestInt64) :
    ∃ j ≠ i, Json.isInteger64 j = true ∧ (ofInt j).rank = (ofInt i).rank := by
  rw [Number.leastInt64] at hlow
  rw [Number.greatestInt64] at hhigh
  obtain ⟨m, hne, hm, he⟩ := exists_nearestNat_eq_of_not h (by omega)
  have hplace : placeOf m = placeOf i.natAbs := by rw [placeOf, placeOf, he]
  have hpos : 0 < m := by
    by_contra h0
    have : 0 < placeOf i.natAbs := placeOf_pos (by simp only [IsToldApart] at h; omega)
    obtain rfl : m = 0 := by omega
    rw [← hplace, placeOf, nearestNat_of_le (Nat.zero_le _), Nat.zero_mul, Nat.zero_min] at this
    exact absurd this (lt_irrefl 0)
  rcases lt_or_ge i 0 with hneg | hnonneg
  · refine ⟨-m, by omega, ?_, ?_⟩
    · rw [Json.isInteger64_iff, Number.leastInt64]
      omega
    · rw [rank_ofInt, rank_ofInt, if_pos (by omega), if_pos hneg, Int.natAbs_neg, Int.natAbs_natCast, hplace]
  · refine ⟨m, by omega, ?_, ?_⟩
    · rw [Json.isInteger64_iff, Number.leastInt64]
      omega
    · rw [rank_ofInt, rank_ofInt, if_neg (by omega), if_neg (by omega), Int.natAbs_natCast, hplace]

end Places

end Binary64

end ProseSchema
