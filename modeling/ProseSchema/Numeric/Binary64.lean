/-!
# Binary floating-point numbers

The numbers of the 64-bit binary format, without the values that are not numbers. A finite number is
a sign and a count of the smallest positive number, `2 ^ -1074`, so that order, rounding and printing
are exact arithmetic on natural numbers.
-/

namespace ProseSchema

inductive Binary64
  /-- A count of units, below zero when `negative`. Zero has both signs. -/
  | finite (negative : Bool) (units : Nat)
  | infinite (negative : Bool)
  deriving DecidableEq

namespace Binary64

def one : Nat := Nat.pow 2 1074

/-- The least count of units that is too large for a finite number. -/
def limit : Nat := Nat.pow 2 2098

/-- The nearest natural number to a quotient; a half goes to the even neighbour. -/
def roundHalfEven (num den : Nat) : Nat :=
  let whole := num / den
  let rest := num % den
  if 2 * rest < den then whole
  else if den < 2 * rest then whole + 1
  else whole + whole % 2

/-- The distance in units between neighbouring numbers where the count of units is `units`: a number has
53 significant binary digits. -/
def spacing (units : Nat) : Nat :=
  Nat.pow 2 (units.log2 - 52)

/-- The number nearest to `num / den` units; a half goes to the even neighbour, and what would reach the
limit is infinite. -/
def ofUnits (negative : Bool) (num den : Nat) : Binary64 :=
  let step := spacing (num / den)
  let units := step * roundHalfEven num (den * step)
  if units < limit then .finite negative units else .infinite negative

def ofQuotient (negative : Bool) (num den : Nat) : Binary64 :=
  ofUnits negative (num * one) den

def ofInt (i : Int) : Binary64 :=
  ofQuotient (decide (i < 0)) i.natAbs 1

/-- The number nearest to `digits * 10 ^ exponent`. Beyond the two clamps the exponent no longer
changes the outcome: from 400 on all but zero is infinite, and further down all is zero. -/
def ofDecimal (negative : Bool) (digits : Nat) (exponent : Int) : Binary64 :=
  let exponent := max (min exponent 400) (-(400 + digits.log2 : Nat))
  ofQuotient negative (digits * Nat.pow 10 exponent.toNat) (Nat.pow 10 (-exponent).toNat)

/-- The place of a number in the order, in units. Both zeros have the same place. -/
def rank : Binary64 → Int
  | .finite negative units => if negative then -units else units
  | .infinite negative => if negative then -limit else limit

/-- Is the number a whole one?  Infinity is not. -/
def isWhole : Binary64 → Bool
  | .finite _ units => units % one = 0
  | .infinite _ => false

/-- The whole part, toward zero; infinity counts as its place in the order. -/
def truncate (x : Binary64) : Int :=
  x.rank.tdiv one

/-- The 64 bits of the interchange format: the sign, eleven bits of exponent and the fraction. -/
def bits : Binary64 → Nat
  | .finite negative units =>
    let shift := units.log2 - 52
    signBit negative + shift * Nat.pow 2 52 + units / Nat.pow 2 shift
  | .infinite negative => signBit negative + 2047 * Nat.pow 2 52
where
  signBit (negative : Bool) : Nat := if negative then Nat.pow 2 63 else 0

end Binary64

end ProseSchema
