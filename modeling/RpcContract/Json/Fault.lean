import RpcContract.Number.DigitLimit
import RpcContract.Text.Basic

/-!
# Faults of a JSON text

What can be wrong with a JSON text and where.  A fault is placed by the number of code points that
are left from it on; the position, line and column shown in its message follow from the text.
-/

namespace RpcContract.Json

/-- What is wrong at a place. -/
inductive Complaint where
  | expectingValue
  | expectingName
  | expectingColon
  | expectingComma
  | extraData
  | unterminatedText
  | invalidEscape
  | invalidUnicodeEscape
  | invalidControl
  | byteOrderMark
  /-- An integer of so many digits is beyond the limit. -/
  | longInteger (digits : Nat)
  deriving Repr, DecidableEq

/-- The wording of a complaint. -/
def Complaint.wording : Complaint → String
  | .expectingValue => "Expecting value"
  | .expectingName => "Expecting property name enclosed in double quotes"
  | .expectingColon => "Expecting ':' delimiter"
  | .expectingComma => "Expecting ',' delimiter"
  | .extraData => "Extra data"
  | .unterminatedText => "Unterminated string starting at"
  | .invalidEscape => "Invalid \\escape"
  | .invalidUnicodeEscape => "Invalid \\uXXXX escape"
  | .invalidControl => "Invalid control character at"
  | .byteOrderMark => "Unexpected UTF-8 BOM (decode using utf-8-sig)"
  | .longInteger digits => DigitLimit.reading digits

/-- Whether the complaint is about the form of the text.  An integer that is too long has the right
form all the same. -/
def Complaint.isFormal : Complaint → Bool
  | .longInteger _ => false
  | _ => true

/-- A complaint and how many code points are left from its place on. -/
structure Fault where
  complaint : Complaint
  left : Nat
  deriving Repr, DecidableEq

/-- The number of code points before the fault. -/
def Fault.position (fault : Fault) (source : Text) : Nat := source.length - fault.left

/-- The line of the fault, from one on. -/
def Fault.line (fault : Fault) (source : Text) : Nat :=
  (source.take (fault.position source)).count (.char '\n') + 1

/-- The column of the fault in its line, from one on. -/
def Fault.column (fault : Fault) (source : Text) : Nat :=
  ((source.take (fault.position source)).reverse.takeWhile (· != .char '\n')).length + 1

/-- The complaint; one about the form of the text comes with its place in the source. -/
def Fault.message (fault : Fault) (source : Text) : String :=
  if fault.complaint.isFormal then
    fault.complaint.wording ++ ": line " ++ toString (fault.line source) ++ " column "
      ++ toString (fault.column source) ++ " (char " ++ toString (fault.position source) ++ ")"
  else fault.complaint.wording

end RpcContract.Json
