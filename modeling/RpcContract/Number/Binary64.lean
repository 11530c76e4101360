import RpcContract.Text.Basic
import RpcContract.Number.Shortest

/-!
# Binary floating point numbers

A binary64 number is kept as its 64 bits, so that two numbers are the same exactly when they are
written the same, NaN and the signed zeros included.  It is read from a decimal with correct
rounding and written with the fewest digits that read back.
-/

namespace RpcContract

/-- A binary64 floating point number, by its bits. -/
structure Binary64 where
  bits : UInt64
  deriving Repr, DecidableEq

namespace Binary64

def ofFloat (x : Float) : Binary64 := ⟨x.toBits⟩

def toFloat (x : Binary64) : Float := Float.ofBits x.bits

/-- Whether the sign bit is set. -/
def isNegative (x : Binary64) : Bool := x.bits >>> 63 == 1

/-- The exponent field. -/
def exponentField (x : Binary64) : Nat := ((x.bits >>> 52) &&& 0x7FF).toNat

/-- The fraction field. -/
def fraction (x : Binary64) : Nat := (x.bits &&& 0xFFFFFFFFFFFFF).toNat

def isNaN (x : Binary64) : Bool := x.exponentField == 0x7FF && x.fraction != 0

def isInfinite (x : Binary64) : Bool := x.exponentField == 0x7FF && x.fraction == 0

def isZero (x : Binary64) : Bool := x.exponentField == 0 && x.fraction == 0

/-- The absolute value of a finite number. -/
def magnitude (x : Binary64) : Dyadic :=
  if x.exponentField == 0 then ⟨x.fraction, -1074, false⟩
  else ⟨0x10000000000000 + x.fraction, (x.exponentField : Int) - 1075,
    x.fraction == 0 && x.exponentField > 1⟩

def infinity : Binary64 := ⟨0x7FF0000000000000⟩

def negativeInfinity : Binary64 := ⟨0xFFF0000000000000⟩

def nan : Binary64 := ⟨0x7FF8000000000000⟩

def negate (x : Binary64) : Binary64 := ⟨x.bits ^^^ 0x8000000000000000⟩

/-- The number nearest to `mantissa * 10 ^ exponent`, ties to even; infinity beyond the range.
Exponents far outside the range are settled without computing their power of ten. -/
def ofDecimal (mantissa : Nat) (exponent : Int) : Binary64 :=
  if mantissa = 0 then ⟨0⟩
  else
    let lead : Int := (Nat.toDigits 10 mantissa).length + exponent
    if lead > 310 then infinity
    else if lead < -330 then ⟨0⟩
    else ofFloat (Float.ofScientific mantissa (exponent < 0) exponent.natAbs)

/-- The number nearest to an integer. -/
def ofInt (n : Int) : Binary64 :=
  let x := ofDecimal n.natAbs 0
  if n < 0 then x.negate else x

/-- The exact integer value of a number, if it has one. -/
def toInt? (x : Binary64) : Option Int :=
  if x.isNaN || x.isInfinite then none
  else
    let d := x.magnitude
    let scaled := d.mantissa * Nat.pow 2 d.exponent.toNat
    let unit := Nat.pow 2 (-d.exponent).toNat
    if scaled % unit = 0 then
      some (if x.isNegative then -((scaled / unit : Nat) : Int) else ((scaled / unit : Nat) : Int))
    else none

/-- The decisions of a written form for floating point numbers. -/
structure Layout where
  /-- From this power of ten of the leading digit on, numbers are written positionally. -/
  plainFrom : Int
  /-- Below this power of ten of the leading digit, numbers are written positionally. -/
  plainBelow : Int
  /-- The least number of digits of an exponent. -/
  exponentWidth : Nat
  /-- What is written for a number that is none. -/
  nan : Text
  /-- What is written for infinity, after the sign. -/
  infinity : Text

/-- The decimal digits of `n`, most significant first. -/
def digitsText (n : Nat) : Text := (Nat.toDigits 10 n).map .char

/-- A positive decimal with `digits` that do not end in zero, laid out.  Positional numbers have a
digit on either side of the point; exponents carry their sign. -/
def Layout.decimal (layout : Layout) (d : Decimal) : Text :=
  let digits := digitsText d.digits
  let lead : Int := (digits.length : Int) - 1 + d.exponent
  if layout.plainFrom ≤ lead ∧ lead < layout.plainBelow then
    if lead < 0 then
      "0.".text ++ Text.filled (-lead - 1).toNat '0' ++ digits
    else
      let whole := lead.toNat + 1
      if digits.length ≤ whole then
        digits ++ Text.filled (whole - digits.length) '0' ++ ".0".text
      else digits.take whole ++ ".".text ++ digits.drop whole
  else
    let fraction := if digits.length ≤ 1 then [] else ".".text ++ digits.drop 1
    let exponent := digitsText lead.natAbs
    digits.take 1 ++ fraction ++ (if lead < 0 then "e-".text else "e+".text)
      ++ Text.filled (layout.exponentWidth - exponent.length) '0' ++ exponent

/-- The written form of a number. -/
def Layout.write (layout : Layout) (x : Binary64) : Text :=
  if x.isNaN then layout.nan
  else
    let sign := if x.isNegative then "-".text else []
    if x.isInfinite then sign ++ layout.infinity
    else if x.isZero then sign ++ "0.0".text
    else sign ++ layout.decimal x.magnitude.shortest.stripZeros

end Binary64

end RpcContract
