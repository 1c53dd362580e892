import ProseSchema.Numeric.Binary64

/-!
# Shortest decimal digits

A floating-point number is written with the fewest decimal digits that read back as that number, and
with the digits nearest to it among those. A style says how the digits are laid out.
-/

namespace ProseSchema

/-- The number `0.digits * 10 ^ point`, without zeros at either end of the digits. -/
structure Decimal where
  digits : Nat
  point : Int
  deriving DecidableEq

/-- Which of two nearest decimals is taken when the number lies midway. -/
inductive MidwayRule
  | toEven
  | up
  deriving DecidableEq

namespace Decimal

def digitCount (n : Nat) : Nat :=
  (Nat.toDigits 10 n).length

/-- The least exponent whose power of ten is above `units` units. -/
def magnitude (units : Nat) : Int :=
  (digitCount (units * Nat.pow 10 400 / Binary64.one) : Int) - 400

/-- The decimals of `count` digits next to a number, as far as they read back as that number, the
preferred one first. Lengths are in quarters of a unit, times a power of ten that makes the grid
of decimals whole. The reals that round to the number reach half way to its neighbours, which is
only a quarter of the upper distance below a power of two, and the ends belong to them when the
significand is even. -/
def candidates (midway : MidwayRule) (units count : Nat) : List Nat :=
  let grid := magnitude units - count
  let cell := 4 * Binary64.one * Nat.pow 10 grid.toNat
  let scale := Nat.pow 10 (-grid).toNat
  let step := Binary64.spacing units
  let value := 4 * units * scale
  let above := 2 * step * scale
  let below := if step ≠ 1 && units = Nat.pow 2 units.log2 then step * scale else above
  let closed := (units / step) % 2 = 0
  let low := value / cell
  let fromLow := value - low * cell
  let fromHigh := (low + 1) * cell - value
  let reaches (distance width : Nat) : Bool := if closed then distance ≤ width else distance < width
  let lowFirst := fromLow < fromHigh || (fromLow = fromHigh && midway = .toEven && low % 2 = 0)
  let ofLow := if reaches fromLow below then [low] else []
  let ofHigh := if reaches fromHigh above then [low + 1] else []
  if lowFirst then ofLow ++ ofHigh else ofHigh ++ ofLow

/-- The shortest decimal of a positive number of units; seventeen digits always suffice. -/
def shortest (midway : MidwayRule) (units : Nat) : Decimal :=
  let point := magnitude units
  let found := (List.range' 1 17).findSome? fun count =>
    (candidates midway units count).head?.map fun digits =>
      if digits = Nat.pow 10 count then ⟨1, point + 1⟩ else ⟨digits, point⟩
  found.getD ⟨0, point⟩

end Decimal

structure DecimalStyle where
  midway : MidwayRule
  /-- What follows the digits of a whole number. -/
  wholeSuffix : String
  /-- The decimal points that are written in place, as a range; others take an exponent. -/
  inPlace : Option (Int × Int)

namespace DecimalStyle

/-- Digits with the decimal point in its place. -/
def positional (style : DecimalStyle) (digits : List Char) (point : Int) : List Char :=
  if point ≤ 0 then ['0', '.'] ++ List.replicate (-point).toNat '0' ++ digits
  else if digits.length ≤ point then
    digits ++ List.replicate (point.toNat - digits.length) '0' ++ style.wholeSuffix.toList
  else digits.take point.toNat ++ '.' :: digits.drop point.toNat

/-- One digit before the decimal point and a power of ten, which always shows its sign. -/
def scientific (digits : List Char) (point : Int) : List Char :=
  let exponent := point - 1
  let fraction := if digits.length ≤ 1 then [] else '.' :: digits.drop 1
  digits.take 1 ++ fraction ++ ['e', if exponent < 0 then '-' else '+'] ++
    Nat.toDigits 10 exponent.natAbs

def write (style : DecimalStyle) (x : Binary64) : String :=
  let sign (negative : Bool) : List Char := if negative then ['-'] else []
  match x with
  | .infinite negative => String.ofList (sign negative ++ ['i', 'n', 'f'])
  | .finite negative 0 => String.ofList (sign negative ++ '0' :: style.wholeSuffix.toList)
  | .finite negative units =>
    let decimal := Decimal.shortest style.midway units
    let digits := Nat.toDigits 10 decimal.digits
    let positional := match style.inPlace with
      | none => true
      | some (lowest, highest) => lowest ≤ decimal.point && decimal.point ≤ highest
    let text := if positional then style.positional digits decimal.point
      else scientific digits decimal.point
    String.ofList (sign negative ++ text)

/-- Never an exponent, and no fraction for a whole number. -/
def plain : DecimalStyle := ⟨.up, "", none⟩

end DecimalStyle

end ProseSchema
