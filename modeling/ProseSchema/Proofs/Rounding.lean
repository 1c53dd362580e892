import Mathlib.Tactic.Linarith
import Mathlib.Tactic.Ring
import ProseSchema.Numeric.Binary64

/-!
# Rounding

Rounding to the nearest number, the even one of two that are as near. It keeps the order of quotients and leaves a
number as it is. Every number has a reach, and the quotients within are rounded to it; from half way between the
greatest number and the limit on they are rounded to infinity.
-/

namespace ProseSchema

namespace Binary64

/-- The natural number is nearest to the quotient, and even if another one is as near. -/
structure IsNearestEven (num den whole : Nat) : Prop where
  below : 2 * (whole * den) ≤ 2 * num + den
  above : 2 * num ≤ 2 * (whole * den) + den
  even : 2 * (whole * den) = 2 * num + den ∨ 2 * num = 2 * (whole * den) + den → whole % 2 = 0

section NearestEven

variable {num den whole num' den' whole' : Nat}

lemma isNearestEven_roundHalfEven (hd : 0 < den) : IsNearestEven num den (roundHalfEven num den) := by
  have hsplit : num / den * den + num % den = num := Nat.div_add_mod' num den
  have hrest : num % den < den := Nat.mod_lt num hd
  have hnext : (num / den + 1) * den = num / den * den + den := Nat.succ_mul _ _
  unfold roundHalfEven
  dsimp only
  split
  · constructor <;> omega
  · split
    · constructor <;> rw [hnext] <;> omega
    · -- The quotient lies midway, so the even neighbour is taken.
      rcases Nat.mod_two_eq_zero_or_one (num / den) with h | h <;> rw [h]
      · constructor <;> simp only [Nat.add_zero] <;> omega
      · constructor <;> rw [hnext] <;> omega

lemma IsNearestEven.le_of_le (h : IsNearestEven num den whole) (h' : IsNearestEven num' den' whole')
    (hd : 0 < den) (hd' : 0 < den') (hle : num * den' ≤ num' * den) : whole ≤ whole' := by
  by_contra hlt
  have hpos : 0 < den * den' := Nat.mul_pos hd hd'
  have hlow : 2 * (whole * (den * den')) ≤ 2 * (num * den') + den * den' := by
    have := Nat.mul_le_mul_right den' h.below
    linarith
  have hhigh : 2 * (num' * den) ≤ 2 * (whole' * (den * den')) + den * den' := by
    have := Nat.mul_le_mul_right den h'.above
    linarith
  have hgap : whole' * (den * den') + den * den' ≤ whole * (den * den') := by
    rw [← Nat.succ_mul]
    exact Nat.mul_le_mul_right _ (by omega)
  -- Only two ties leave room for this, and then both neighbours are even.
  have hwhole : whole = whole' + 1 := by
    by_contra hne
    have : (whole' + 2) * (den * den') ≤ whole * (den * den') := Nat.mul_le_mul_right _ (by omega)
    rw [Nat.add_mul] at this
    omega
  have htie : 2 * (whole * den) = 2 * num + den := by
    apply Nat.eq_of_mul_eq_mul_right hd'
    linarith
  have htie' : 2 * num' = 2 * (whole' * den') + den' := by
    apply Nat.eq_of_mul_eq_mul_right hd
    linarith
  have heven := h.even (.inl htie)
  have heven' := h'.even (.inr htie')
  omega

lemma roundHalfEven_eq (hd : 0 < den) (h : IsNearestEven num den whole) : roundHalfEven num den = whole :=
  le_antisymm ((isNearestEven_roundHalfEven hd).le_of_le h hd hd le_rfl)
    (h.le_of_le (isNearestEven_roundHalfEven hd) hd hd le_rfl)

lemma isNearestEven_mul (hd : 0 < den) : IsNearestEven (whole * den) den whole := by
  constructor <;> omega

end NearestEven

section Spacing

variable {units other k : Nat}

lemma spacing_eq (units : Nat) : spacing units = 2 ^ (units.log2 - 52) :=
  rfl

lemma spacing_pos (units : Nat) : 0 < spacing units :=
  Nat.two_pow_pos _

lemma lt_spacing_mul (units : Nat) : units < spacing units * 2 ^ 53 := by
  have hexp : units.log2 + 1 ≤ units.log2 - 52 + 53 := by omega
  calc units < 2 ^ (units.log2 + 1) := Nat.lt_log2_self
    _ ≤ 2 ^ (units.log2 - 52 + 53) := Nat.pow_le_pow_right Nat.two_pos hexp
    _ = spacing units * 2 ^ 53 := Nat.pow_add _ _ _

lemma spacing_mul_le (h : spacing units ≠ 1) : spacing units * 2 ^ 52 ≤ units := by
  have hlog : 52 < units.log2 := by
    by_contra hle
    rw [spacing_eq, Nat.sub_eq_zero_of_le (not_lt.mp hle), Nat.pow_zero] at h
    exact h rfl
  have hne : units ≠ 0 := by
    rintro rfl
    simp at hlog
  calc spacing units * 2 ^ 52 = 2 ^ units.log2 := by rw [spacing_eq, ← Nat.pow_add, Nat.sub_add_cancel hlog.le]
    _ ≤ units := Nat.log2_self_le hne

lemma spacing_dvd_spacing (h : units ≤ other) : spacing units ∣ spacing other := by
  apply Nat.pow_dvd_pow
  rcases Nat.eq_zero_or_pos units with rfl | hpos
  · simp
  · have : units.log2 ≤ other.log2 := by
      rw [Nat.le_log2 (by omega)]
      exact (Nat.log2_self_le (by omega)).trans h
    omega

/-- Where the spacing grows, it at least doubles. -/
lemma spacing_mul_two_le (h : units ≤ other) (hs : spacing units ≠ spacing other) :
    spacing units * 2 ≤ spacing other := by
  obtain ⟨c, hc⟩ := spacing_dvd_spacing h
  have hpos := spacing_pos other
  have hzero : c ≠ 0 := by
    rintro rfl
    omega
  have hone : c ≠ 1 := by
    rintro rfl
    exact hs (by rw [hc, Nat.mul_one])
  rw [hc]
  exact Nat.mul_le_mul_left _ (by omega)

lemma spacing_eq_two_pow (hlt : units < 2 ^ k * 2 ^ 53) (hle : k = 0 ∨ 2 ^ k * 2 ^ 52 ≤ units) :
    spacing units = 2 ^ k := by
  rw [spacing_eq]
  congr 1
  rw [← Nat.pow_add] at hlt
  rcases Nat.eq_zero_or_pos units with rfl | hpos
  · rcases hle with rfl | hle
    · simp
    · exact absurd hle (by simp)
  · have hhigh : units.log2 < k + 53 := (Nat.log2_lt hpos.ne').mpr hlt
    rcases hle with rfl | hle
    · omega
    · rw [← Nat.pow_add, ← Nat.le_log2 hpos.ne'] at hle
      omega

lemma spacing_eq_spacing (hlt : other < spacing units * 2 ^ 53)
    (hle : spacing units = 1 ∨ spacing units * 2 ^ 52 ≤ other) : spacing other = spacing units := by
  refine spacing_eq_two_pow hlt (hle.imp_left fun h1 => ?_)
  rw [spacing_eq, Nat.pow_eq_one] at h1
  exact h1.resolve_left (by decide)

end Spacing

/-- The count of units is that of a number: it has 53 significant binary digits. -/
def OnGrid (units : Nat) : Prop :=
  spacing units ∣ units

lemma onGrid_mul {k m : Nat} (hm : m ≤ 2 ^ 53) (hk : k = 0 ∨ 2 ^ 52 ≤ m) : OnGrid (2 ^ k * m) := by
  rcases hm.lt_or_eq with hlt | rfl
  · have hs : spacing (2 ^ k * m) = 2 ^ k := by
      refine spacing_eq_two_pow (Nat.mul_lt_mul_of_pos_left hlt (Nat.two_pow_pos k)) ?_
      exact hk.imp_right fun h => Nat.mul_le_mul_left _ h
    rw [OnGrid, hs]
    exact Nat.dvd_mul_right _ _
  · have hs : spacing (2 ^ k * 2 ^ 53) = 2 ^ (k + 1) := by
      rw [← Nat.pow_add]
      refine spacing_eq_two_pow ?_ (.inr ?_)
      · rw [← Nat.pow_add]
        exact Nat.pow_lt_pow_right (by decide) (by omega)
      · rw [← Nat.pow_add]
    rw [OnGrid, hs, ← Nat.pow_add]
    exact Nat.pow_dvd_pow 2 (by omega)

lemma onGrid_two_pow (k : Nat) : OnGrid (2 ^ k) := by
  rw [OnGrid, spacing_eq, Nat.log2_two_pow]
  exact Nat.pow_dvd_pow 2 (Nat.sub_le k 52)

/-- The count of units that a quotient is rounded to, were there no limit. -/
def roundedUnits (num den : Nat) : Nat :=
  spacing (num / den) * roundHalfEven num (den * spacing (num / den))

lemma ofUnits_eq (negative : Bool) (num den : Nat) : ofUnits negative num den =
    if roundedUnits num den < limit then .finite negative (roundedUnits num den) else .infinite negative :=
  rfl

section Rounded

variable {num den num' den' units : Nat}

lemma roundedUnits_le (hd : 0 < den) : roundedUnits num den ≤ spacing (num / den) * 2 ^ 53 := by
  have hstep : 0 < den * spacing (num / den) := Nat.mul_pos hd (spacing_pos _)
  refine Nat.mul_le_mul_left _ ?_
  refine (isNearestEven_roundHalfEven hstep).le_of_le (isNearestEven_mul hstep) hstep hstep ?_
  have hlt := (Nat.div_lt_iff_lt_mul hd).mp (lt_spacing_mul (num / den))
  refine Nat.mul_le_mul_right _ ?_
  linarith

lemma le_roundedUnits (hd : 0 < den) (hs : spacing (num / den) ≠ 1) :
    spacing (num / den) * 2 ^ 52 ≤ roundedUnits num den := by
  have hstep : 0 < den * spacing (num / den) := Nat.mul_pos hd (spacing_pos _)
  refine Nat.mul_le_mul_left _ ?_
  refine (isNearestEven_mul hstep).le_of_le (isNearestEven_roundHalfEven hstep) hstep hstep ?_
  have hle := (Nat.le_div_iff_mul_le hd).mp (spacing_mul_le hs)
  refine Nat.mul_le_mul_right _ ?_
  linarith

lemma onGrid_roundedUnits (hd : 0 < den) : OnGrid (roundedUnits num den) := by
  have hs := spacing_pos (num / den)
  refine onGrid_mul (Nat.le_of_mul_le_mul_left (roundedUnits_le hd) hs) ?_
  by_cases h1 : spacing (num / den) = 1
  · rw [spacing_eq, Nat.pow_eq_one] at h1
    exact .inl (h1.resolve_left (by decide))
  · exact .inr (Nat.le_of_mul_le_mul_left (le_roundedUnits hd h1) hs)

/-- Rounding keeps the order of quotients. -/
lemma roundedUnits_mono (hd : 0 < den) (hd' : 0 < den') (h : num * den' ≤ num' * den) :
    roundedUnits num den ≤ roundedUnits num' den' := by
  have hquot : num / den ≤ num' / den' := by
    rw [Nat.le_div_iff_mul_le hd']
    apply Nat.le_of_mul_le_mul_right _ hd
    calc num / den * den' * den = num / den * den * den' := Nat.mul_right_comm _ _ _
      _ ≤ num * den' := Nat.mul_le_mul_right _ (Nat.div_mul_le_self num den)
      _ ≤ num' * den := h
  by_cases hs : spacing (num / den) = spacing (num' / den')
  · have hstep := spacing_pos (num / den)
    rw [roundedUnits, roundedUnits, ← hs]
    refine Nat.mul_le_mul_left _ ?_
    have hden : 0 < den * spacing (num / den) := Nat.mul_pos hd hstep
    have hden' : 0 < den' * spacing (num / den) := Nat.mul_pos hd' hstep
    refine (isNearestEven_roundHalfEven hden).le_of_le (isNearestEven_roundHalfEven hden') hden hden' ?_
    rw [← Nat.mul_assoc, ← Nat.mul_assoc]
    exact Nat.mul_le_mul_right _ h
  · -- Where the spacing grows, a power of two lies between the two quotients.
    have htwice := spacing_mul_two_le hquot hs
    have hne : spacing (num' / den') ≠ 1 := by
      have hpos := spacing_pos (num / den)
      omega
    calc roundedUnits num den ≤ spacing (num / den) * 2 ^ 53 := roundedUnits_le hd
      _ = spacing (num / den) * 2 * 2 ^ 52 := by ring
      _ ≤ spacing (num' / den') * 2 ^ 52 := Nat.mul_le_mul_right _ htwice
      _ ≤ roundedUnits num' den' := le_roundedUnits hd' hne

lemma roundedUnits_congr (hd : 0 < den) (hd' : 0 < den') (h : num * den' = num' * den) :
    roundedUnits num den = roundedUnits num' den' :=
  le_antisymm (roundedUnits_mono hd hd' h.le) (roundedUnits_mono hd' hd h.ge)

end Rounded

/-- How far below a number the quotients are rounded to it, in quarters of a unit: as far as above it, or half
of that at a power of two, below which the numbers are twice as close. -/
def reachBelow (units : Nat) : Nat :=
  if spacing units ≠ 1 ∧ units = 2 ^ units.log2 then spacing units else 2 * spacing units

/-- The quotient is within reach of the number. -/
structure IsWithinReach (num den units : Nat) : Prop where
  below : 4 * (units * den) ≤ 4 * num + reachBelow units * den
  above : 4 * num ≤ 4 * (units * den) + 2 * (spacing units * den)
  even : 4 * (units * den) = 4 * num + reachBelow units * den ∨
    4 * num = 4 * (units * den) + 2 * (spacing units * den) → units / spacing units % 2 = 0

section Reach

variable {num den units : Nat}

lemma reachBelow_cases (units : Nat) : reachBelow units = 2 * spacing units ∧
      (spacing units = 1 ∨ spacing units * 2 ^ 52 < units) ∨
    reachBelow units = spacing units ∧ ∃ k, spacing units = 2 ^ (k + 1) ∧ units = 2 ^ k * 2 ^ 53 := by
  by_cases h : spacing units ≠ 1 ∧ units = 2 ^ units.log2
  · refine .inr ⟨if_pos h, units.log2 - 53, ?_⟩
    have hlog : 52 < units.log2 := by
      by_contra hle
      exact h.1 (by rw [spacing_eq, Nat.sub_eq_zero_of_le (not_lt.mp hle), Nat.pow_zero])
    constructor
    · rw [spacing_eq]
      congr 1
      omega
    · rw [← Nat.pow_add, Nat.sub_add_cancel hlog]
      exact h.2
  · refine .inl ⟨if_neg h, or_iff_not_imp_left.mpr fun h1 => lt_of_le_of_ne (spacing_mul_le h1) fun he => ?_⟩
    have hpow : units = 2 ^ (units.log2 - 52 + 52) := by rw [Nat.pow_add, ← spacing_eq, he]
    refine h ⟨h1, ?_⟩
    have hlog : units.log2 = units.log2 - 52 + 52 := by
      conv_lhs => rw [hpow, Nat.log2_two_pow]
    rwa [← hlog] at hpow

/-- Where the numbers around a quotient are spaced as around the number, only half the spacing counts. -/
lemma roundedUnits_of_spacing (hd : 0 < den) (hu : OnGrid units) (hs : spacing (num / den) = spacing units)
    (hbelow : 4 * (units * den) ≤ 4 * num + 2 * (spacing units * den))
    (habove : 4 * num ≤ 4 * (units * den) + 2 * (spacing units * den))
    (heven : 4 * (units * den) = 4 * num + 2 * (spacing units * den) ∨
      4 * num = 4 * (units * den) + 2 * (spacing units * den) → units / spacing units % 2 = 0) :
    roundedUnits num den = units := by
  have hstep : 0 < den * spacing units := Nat.mul_pos hd (spacing_pos _)
  have hunits : units / spacing units * (den * spacing units) = units * den := by
    rw [Nat.mul_comm den, ← Nat.mul_assoc, Nat.div_mul_cancel hu]
  have hnear : IsNearestEven num (den * spacing units) (units / spacing units) := by
    rw [Nat.mul_comm (spacing units)] at hbelow habove heven
    refine ⟨?_, ?_, fun htie => heven ?_⟩ <;> rw [hunits] at * <;> omega
  rw [roundedUnits, hs, roundHalfEven_eq hstep hnear, Nat.mul_div_cancel' hu]

/-- Numbers below the next power of two are as far from it as their spacing at least. -/
lemma add_spacing_le {bound : Nat} (hu : OnGrid units) (h : units < spacing units * bound) :
    units + spacing units ≤ spacing units * bound := by
  obtain ⟨m, hm⟩ := hu
  have hm' : m < bound := Nat.lt_of_mul_lt_mul_left (a := spacing units) (hm ▸ h)
  calc units + spacing units = spacing units * (m + 1) := by rw [Nat.mul_succ, ← hm]
    _ ≤ spacing units * bound := Nat.mul_le_mul_left _ hm'

lemma spacing_mul_add_le {bound : Nat} (hu : OnGrid units) (h : spacing units * bound < units) :
    spacing units * bound + spacing units ≤ units := by
  obtain ⟨m, hm⟩ := hu
  have hm' : bound < m := Nat.lt_of_mul_lt_mul_left (a := spacing units) (hm ▸ h)
  calc spacing units * bound + spacing units = spacing units * (bound + 1) := (Nat.mul_succ _ _).symm
    _ ≤ spacing units * m := Nat.mul_le_mul_left _ hm'
    _ = units := hm.symm

lemma spacing_quotient_eq (hd : 0 < den) (hu : OnGrid units)
    (habove : 4 * num ≤ 4 * (units * den) + 2 * (spacing units * den))
    (hlow : spacing units = 1 ∨ spacing units * 2 ^ 52 * den ≤ num) : spacing (num / den) = spacing units := by
  refine spacing_eq_spacing ?_ (hlow.imp_right (Nat.le_div_iff_mul_le hd).mpr)
  have hstep : 0 < spacing units * den := Nat.mul_pos (spacing_pos units) hd
  have hgap := Nat.mul_le_mul_right den (add_spacing_le hu (lt_spacing_mul units))
  rw [Nat.add_mul] at hgap
  rw [Nat.div_lt_iff_lt_mul hd]
  omega

/-- Right below a power of two the numbers are twice as close. -/
lemma roundedUnits_below_two_pow {k : Nat} (hd : 0 < den) (hlt : num < 2 ^ k * 2 ^ 53 * den)
    (hbelow : 4 * (2 ^ k * 2 ^ 53 * den) ≤ 4 * num + 2 ^ (k + 1) * den) :
    roundedUnits num den = 2 ^ k * 2 ^ 53 := by
  have hstep : 0 < den * 2 ^ k := Nat.mul_pos hd (Nat.two_pow_pos k)
  have hs : spacing (num / den) = 2 ^ k := by
    refine spacing_eq_two_pow ((Nat.div_lt_iff_lt_mul hd).mpr hlt) (.inr ((Nat.le_div_iff_mul_le hd).mpr ?_))
    have hpow : 2 ^ (k + 1) * den ≤ 2 ^ k * 2 ^ 53 * den := by
      refine Nat.mul_le_mul_right _ ?_
      rw [← Nat.pow_add]
      exact Nat.pow_le_pow_right (by decide) (by omega)
    have hhalf : 2 * (2 ^ k * 2 ^ 52 * den) = 2 ^ k * 2 ^ 53 * den := by ring
    omega
  have hnear : IsNearestEven num (den * 2 ^ k) (2 ^ 53) := by
    have hunits : 2 ^ 53 * (den * 2 ^ k) = 2 ^ k * 2 ^ 53 * den := by ring
    have hdouble : 2 ^ (k + 1) * den = 2 * (den * 2 ^ k) := by ring
    rw [hdouble] at hbelow
    refine ⟨?_, ?_, fun _ => rfl⟩ <;> rw [hunits] <;> omega
  rw [roundedUnits, hs, roundHalfEven_eq hstep hnear]

/-- A quotient within reach of a number is rounded to it. -/
theorem roundedUnits_of_isWithinReach (hd : 0 < den) (hu : OnGrid units) (h : IsWithinReach num den units) :
    roundedUnits num den = units := by
  obtain ⟨hbelow, habove, heven⟩ := h
  have hstep : 0 < spacing units * den := Nat.mul_pos (spacing_pos units) hd
  rcases le_or_gt (units * den) num with hle | hlt
  · have hlow : spacing units = 1 ∨ spacing units * 2 ^ 52 * den ≤ num :=
      or_iff_not_imp_left.mpr fun h1 => (Nat.mul_le_mul_right den (spacing_mul_le h1)).trans hle
    refine roundedUnits_of_spacing hd hu (spacing_quotient_eq hd hu habove hlow) (by omega) habove ?_
    exact fun htie => heven (.inr (htie.resolve_left (by omega)))
  · rcases reachBelow_cases units with ⟨hr, hcase⟩ | ⟨hr, k, hk, rfl⟩
    · rw [hr, Nat.mul_assoc] at hbelow heven
      have hlow : spacing units = 1 ∨ spacing units * 2 ^ 52 * den ≤ num := hcase.imp_right fun hgt => by
        have hgap := Nat.mul_le_mul_right den (spacing_mul_add_le hu hgt)
        rw [Nat.add_mul] at hgap
        omega
      exact roundedUnits_of_spacing hd hu (spacing_quotient_eq hd hu habove hlow) hbelow habove heven
    · rw [hr, hk] at hbelow
      exact roundedUnits_below_two_pow hd hlt hbelow

lemma isWithinReach_mul (hd : 0 < den) (units : Nat) : IsWithinReach (units * den) den units := by
  have hstep : 0 < spacing units * den := Nat.mul_pos (spacing_pos units) hd
  have hreach : 0 < reachBelow units * den := by
    rcases reachBelow_cases units with ⟨hr, -⟩ | ⟨hr, -⟩ <;> rw [hr]
    · rw [Nat.mul_assoc]
      omega
    · exact hstep
  constructor <;> omega

/-- A number is rounded to itself. -/
lemma roundedUnits_mul (hd : 0 < den) (hu : OnGrid units) : roundedUnits (units * den) den = units :=
  roundedUnits_of_isWithinReach hd hu (isWithinReach_mul hd units)

end Reach

section Limit

variable {num den : Nat}

/-- The greatest count of units of a finite number. -/
def greatest : Nat :=
  limit - Nat.pow 2 2045

lemma exists_step : ∃ k, limit = 2 ^ k * 2 ^ 53 ∧ greatest = 2 ^ k * (2 ^ 53 - 1) :=
  ⟨2045, by decide +kernel⟩

lemma spacing_mul_pred (k : Nat) : spacing (2 ^ k * (2 ^ 53 - 1)) = 2 ^ k := by
  refine spacing_eq_two_pow (Nat.mul_lt_mul_of_pos_left ?_ (Nat.two_pow_pos k)) (.inr (Nat.mul_le_mul_left _ ?_))
  · decide
  · decide

/-- Rounding stays below the limit up to half way between the greatest number and the limit. -/
theorem roundedUnits_lt_limit_iff (hd : 0 < den) :
    roundedUnits num den < limit ↔ 2 * num < (greatest + limit) * den := by
  obtain ⟨k, hlimit, hgreatest⟩ := exists_step
  have hs : spacing greatest * den = 2 ^ k * den := by rw [hgreatest, spacing_mul_pred]
  have hstep : 0 < 2 ^ k * den := Nat.mul_pos (Nat.two_pow_pos k) hd
  have hgap : greatest + 2 ^ k = limit := by
    rw [hgreatest, hlimit, ← Nat.mul_succ]
    rfl
  have hsum : (greatest + limit) * den = 2 * (greatest * den) + 2 ^ k * den := by
    rw [← hgap]
    ring
  have hlimit' : limit * den = greatest * den + 2 ^ k * den := by rw [← hgap, Nat.add_mul]
  rw [hsum]
  constructor
  · intro h
    by_contra hge
    have hreached : limit ≤ roundedUnits num den := by
      rcases lt_or_ge num (limit * den) with hlt | hle
      · have hdouble : 2 ^ (k + 1) * den = 2 * (2 ^ k * den) := by ring
        rw [hlimit] at hlt hlimit' ⊢
        exact (roundedUnits_below_two_pow hd hlt (by omega)).ge
      · have hgrid : OnGrid limit := hlimit ▸ onGrid_mul le_rfl (.inr (by decide))
        calc limit = roundedUnits (limit * den) den := (roundedUnits_mul hd hgrid).symm
          _ ≤ roundedUnits num den := roundedUnits_mono hd hd (Nat.mul_le_mul_right _ hle)
    exact absurd h (not_lt.mpr hreached)
  · intro h
    have hgrid : OnGrid greatest := hgreatest ▸ onGrid_mul (by decide) (.inr (by decide))
    have hle : roundedUnits num den ≤ greatest := by
      rcases le_or_gt num (greatest * den) with hle | hlt
      · calc roundedUnits num den ≤ roundedUnits (greatest * den) den :=
            roundedUnits_mono hd hd (Nat.mul_le_mul_right _ hle)
          _ = greatest := roundedUnits_mul hd hgrid
      · have hnear : IsWithinReach num den greatest :=
          ⟨by omega, by omega, fun htie => absurd htie (by omega)⟩
        exact (roundedUnits_of_isWithinReach hd hgrid hnear).le
    have hpos := Nat.two_pow_pos k
    omega

lemma rank_ofUnits (negative : Bool) (num den : Nat) : (ofUnits negative num den).rank =
    if negative then -(min (roundedUnits num den) limit : Int) else (min (roundedUnits num den) limit : Int) := by
  rw [ofUnits_eq]
  split
  · next h => rw [rank, min_eq_left (by exact_mod_cast h.le)]
  · next h => rw [rank, min_eq_right (by exact_mod_cast not_lt.mp h)]

end Limit

end Binary64

end ProseSchema
