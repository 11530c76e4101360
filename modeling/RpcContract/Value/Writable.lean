import RpcContract.Failure

/-!
# Values that can be written

A value is written as text only if all integers in it are within the limit on written integers.
-/

namespace RpcContract.Value

mutual

/-- Whether every integer in the value can be written. -/
def isWritable : Value → Bool
  | .int n => !DigitLimit.isExceeded n
  | .list items | .tuple items => areWritable items
  | .record members => areMembersWritable members
  | _ => true

def areWritable : List Value → Bool
  | [] => true
  | item :: rest => isWritable item && areWritable rest

def areMembersWritable : List (Text × Value) → Bool
  | [] => true
  | (_, v) :: rest => isWritable v && areMembersWritable rest

end

/-- The value where it is to be written, or the failure to write it. -/
def toWrite (v : Value) : Except Failure Value :=
  if v.isWritable then .ok v else .error (.error .value DigitLimit.writing.text)

end RpcContract.Value
