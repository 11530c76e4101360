/-!
# The limit on written integers

Integers are read from text and written as text with at most 4300 decimal digits.  Calculations are
not limited: an integer beyond the limit may come about, but it has no written form.
-/

namespace RpcContract.DigitLimit

/-- The greatest number of decimal digits of a written integer. -/
def digits : Nat := 4300

/-- Whether an integer has too many digits to be written. -/
def isExceeded (n : Int) : Bool := Nat.pow 10 digits ≤ n.natAbs

/-- The complaint about an integer beyond the limit; `detail` says more about it. -/
def complaint (detail : String) : String :=
  "Exceeds the limit (4300 digits) for integer string conversion" ++ detail
    ++ "; use sys.set_int_max_str_digits() to increase the limit"

/-- The complaint about a text of `given` digits that is to be read. -/
def reading (given : Nat) : String := complaint (": value has " ++ toString given ++ " digits")

/-- The complaint about an integer that is to be written. -/
def writing : String := complaint ""

end RpcContract.DigitLimit
