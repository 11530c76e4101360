/-!
# Shortest decimals

A finite binary64 value stands for an interval of reals: those that round to it.  The decimal that
is written for the value is the one with the fewest digits in that interval and, among those, the
nearest to the value.  Everything here is exact arithmetic on naturals.
-/

namespace RpcContract

/-- The decimal `digits * 10 ^ exponent`. -/
structure Decimal where
  digits : Nat
  exponent : Int
  deriving Repr, DecidableEq

/-- The non-negative binary value `mantissa * 2 ^ exponent`. -/
structure Dyadic where
  mantissa : Nat
  exponent : Int
  /-- The gap to the neighbour below is half the gap to the neighbour above. -/
  narrowBelow : Bool
  deriving Repr, DecidableEq

namespace Dyadic

/-- Compares `a * 10 ^ i` with `n * 2 ^ j`. -/
def compareScaled (a : Nat) (i : Int) (n : Nat) (j : Int) : Ordering :=
  compare (a * Nat.pow 10 i.toNat * Nat.pow 2 (-j).toNat)
    (n * Nat.pow 2 j.toNat * Nat.pow 10 (-i).toNat)

/-- Whether the decimal lies in the interval that rounds to the value.  The interval ends halfway
to either neighbour, and the ends belong to it when the mantissa is even. -/
def readsBack (x : Dyadic) (d : Decimal) : Bool :=
  let low := if x.narrowBelow then 4 * x.mantissa - 1 else 4 * x.mantissa - 2
  let high := 4 * x.mantissa + 2
  let ends := x.mantissa % 2 == 0
  let above := compareScaled d.digits d.exponent low (x.exponent - 2)
  let below := compareScaled d.digits d.exponent high (x.exponent - 2)
  (above == .gt || (ends && above == .eq)) && (below == .lt || (ends && below == .eq))

/-- The value in units of `10 ^ scale`, rounded down. -/
def floorAt (x : Dyadic) (scale : Int) : Nat :=
  (x.mantissa * Nat.pow 2 x.exponent.toNat * Nat.pow 10 (-scale).toNat) /
    (Nat.pow 2 (-x.exponent).toNat * Nat.pow 10 scale.toNat)

/-- The number of digits before the decimal point of `n`, zero for zero. -/
def digitCount (n : Nat) : Nat := if n = 0 then 0 else (Nat.toDigits 10 n).length

/-- The power of ten of the leading digit of a positive value. -/
def leadingScale (x : Dyadic) : Int :=
  let whole := digitCount (x.floorAt 0)
  if whole = 0 then
    -- below one: 400 places hold the leading digit of the least positive value
    (digitCount (x.floorAt (-400)) : Int) - 401
  else (whole : Int) - 1

/-- The decimal of the grid `10 ^ scale` that reads back to the value: of the value's two neighbours
on the grid the nearer one that does, the even one at an exact tie. -/
def onGrid? (x : Dyadic) (scale : Int) : Option Decimal :=
  let down : Decimal := ⟨x.floorAt scale, scale⟩
  let up : Decimal := ⟨down.digits + 1, scale⟩
  match x.readsBack down, x.readsBack up with
  | false, false => none
  | true, false => some down
  | false, true => some up
  | true, true =>
    -- twice the value against the sum of the two
    match compareScaled (down.digits + up.digits) scale (2 * x.mantissa) x.exponent with
    | .gt => some down
    | .lt => some up
    | .eq => some (if down.digits % 2 == 0 then down else up)

/-- The value itself as a decimal. -/
def exactly (x : Dyadic) : Decimal :=
  ⟨x.mantissa * Nat.pow 2 x.exponent.toNat * Nat.pow 5 (-x.exponent).toNat, min x.exponent 0⟩

/-- The decimal with the fewest digits that reads back to the value.  The grids of one to seventeen
digits are tried in turn; the exact value stands behind them. -/
def shortest (x : Dyadic) : Decimal :=
  let lead := x.leadingScale
  ((List.range 17).findSome? fun (n : Nat) => x.onGrid? (lead - (n : Int))).getD x.exactly

end Dyadic

namespace Decimal

/-- The decimal without zeros at the end of its digits. -/
def stripZeros (d : Decimal) : Decimal := go d.digits d.exponent (digitLength d.digits)
where
  /-- How many digits there are to strip at most. -/
  digitLength (n : Nat) : Nat := (Nat.toDigits 10 n).length
  /-- Takes one zero off the digits for each unit of the bound. -/
  go (digits : Nat) (exponent : Int) : Nat → Decimal
    | 0 => ⟨digits, exponent⟩
    | bound + 1 =>
      if digits % 10 = 0 ∧ digits ≠ 0 then go (digits / 10) (exponent + 1) bound
      else ⟨digits, exponent⟩

end Decimal

end RpcContract
