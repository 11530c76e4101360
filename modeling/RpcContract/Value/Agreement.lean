import RpcContract.Value.Basic

/-!
# When two values agree

Numbers agree when they are numerically equal, whichever of the number types they have, and a truth
value agrees with the number it counts as.  Objects agree when they have the same members in any
order.
-/

namespace RpcContract

namespace Value

/-- A number in the form in which numbers are compared: an integer where it is one. -/
inductive Comparable where
  | whole (n : Int)
  | other (x : Binary64)
  deriving DecidableEq

/-- The number that a value counts as. -/
def comparable? : Value → Option Comparable
  | .bool b => some (.whole (if b then 1 else 0))
  | .int n => some (.whole n)
  | .float x => some (match x.toInt? with
    | some n => .whole n
    | none => .other x)
  | _ => none

/-- Whether two numbers are numerically equal; NaN equals nothing. -/
def Comparable.agrees : Comparable → Comparable → Bool
  | .whole m, .whole n => m == n
  | .other x, .other y => x == y && !x.isNaN
  | _, _ => false

mutual

/-- Whether two values agree. -/
def agrees : Value → Value → Bool
  | .null, .null | .undefined, .undefined => true
  | .text t, .text u => t == u
  | .list xs, .list ys => agreeItems xs ys
  | .tuple xs, .tuple ys => agreeItems xs ys
  | .record ms, .record ns => ms.length == ns.length && agreeMembers ms ns
  | .host a, .host b => a == b
  | .bool b, w => agreeNumbers (.bool b) w
  | .int n, w => agreeNumbers (.int n) w
  | .float x, w => agreeNumbers (.float x) w
  | _, _ => false
where
  /-- Whether both values count as numbers and these are equal. -/
  agreeNumbers (v w : Value) : Bool :=
    match v.comparable?, w.comparable? with
    | some x, some y => x.agrees y
    | _, _ => false

/-- Whether two lists agree item by item. -/
def agreeItems : List Value → List Value → Bool
  | [], [] => true
  | x :: xs, y :: ys => agrees x y && agreeItems xs ys
  | _, _ => false

/-- Whether every member has its like under the same name. -/
def agreeMembers : List (Text × Value) → List (Text × Value) → Bool
  | [], _ => true
  | (name, x) :: rest, ns =>
    (match Assoc.find? name ns with
      | some y => agrees x y
      | none => false) && agreeMembers rest ns

end

end Value

end RpcContract
