import RpcContract.Value.Basic
import RpcContract.Text.Quoted

/-!
# How values are shown

`display` shows a value as it stands inside a message or a larger value, with texts quoted; `bare`
shows a text as itself and every other value as `display` does.
-/

namespace RpcContract

/-- The decimal digits of an integer after its sign. -/
def Text.ofInt (n : Int) : Text :=
  if n < 0 then "-".text ++ Binary64.digitsText n.natAbs else Binary64.digitsText n.natAbs

/-- Floating point numbers in messages are positional from 10^-4 up to 10^16 and have exponents of
at least two digits. -/
def Binary64.shown : Binary64.Layout where
  plainFrom := -4
  plainBelow := 16
  exponentWidth := 2
  nan := "nan".text
  infinity := "inf".text

namespace Value

mutual

/-- The value as it stands inside a message. -/
def display : Value → Text
  | .null => "None".text
  | .undefined => "UNDEFINED".text
  | .bool b => if b then "True".text else "False".text
  | .int n => Text.ofInt n
  | .float x => Binary64.shown.write x
  | .text t => Text.quoted t
  | .list items => "[".text ++ displayItems items ++ "]".text
  | .tuple [item] => "(".text ++ display item ++ ",)".text
  | .tuple items => "(".text ++ displayItems items ++ ")".text
  | .record members => "\x7b".text ++ displayMembers members ++ "\x7d".text
  | .host object => object.shown

/-- The items with commas between them. -/
def displayItems : List Value → Text
  | [] => []
  | [item] => display item
  | item :: next :: rest => display item ++ ", ".text ++ displayItems (next :: rest)

/-- The members with commas between them. -/
def displayMembers : List (Text × Value) → Text
  | [] => []
  | [(name, value)] => Text.quoted name ++ ": ".text ++ display value
  | (name, value) :: next :: rest =>
    Text.quoted name ++ ": ".text ++ display value ++ ", ".text ++ displayMembers (next :: rest)

end

/-- The value where a bare text is wanted. -/
def bare : Value → Text
  | .text t => t
  | v => display v

end Value

end RpcContract
