import RpcContract.Assoc
import RpcContract.Number.Binary64

/-!
# Values

The values that calls carry: everything a wire message can hold, the absent value `undefined` that
a message can only stand for, tuples, and objects of the hosting process that are known by the name
of their type alone.
-/

namespace RpcContract

/-- An object of the hosting process. -/
structure HostObject where
  /-- The name of its type. -/
  typeName : Text
  /-- How it is shown. -/
  shown : Text
  deriving Repr, DecidableEq

inductive Value where
  | null
  /-- The value that is absent, as opposed to null. -/
  | undefined
  | bool (b : Bool)
  | int (n : Int)
  | float (x : Binary64)
  | text (t : Text)
  | list (items : List Value)
  | tuple (items : List Value)
  /-- An object with its members in order. -/
  | record (members : List (Text × Value))
  | host (object : HostObject)
  deriving Repr, Inhabited

namespace Value

/-- Null and undefined are absent. -/
def isAbsent : Value → Bool
  | .null | .undefined => true
  | _ => false

def isUndefined : Value → Bool
  | .undefined => true
  | _ => false

/-- The items of a list or tuple. -/
def items? : Value → Option (List Value)
  | .list items | .tuple items => some items
  | _ => none

/-- The members of an object. -/
def members? : Value → Option (Assoc Value)
  | .record members => some members
  | _ => none

/-- Whether the value counts as true where a condition is wanted: absent values, false, zeros and
everything empty do not. -/
def isTrue : Value → Bool
  | .null | .undefined => false
  | .bool b => b
  | .int n => n != 0
  | .float x => !x.isZero
  | .text t => !t.isEmpty
  | .list items | .tuple items => !items.isEmpty
  | .record members => !members.isEmpty
  | .host _ => true

/-- Whether something can be looked up by the value: lists and objects are no keys. -/
def isKey : Value → Bool
  | .list _ | .record _ => false
  | _ => true

/-- The name of the value's type in the hosting process. -/
def typeName : Value → Text
  | .null => "NoneType".text
  | .undefined => "_Undefined".text
  | .bool _ => "bool".text
  | .int _ => "int".text
  | .float _ => "float".text
  | .text _ => "str".text
  | .list _ => "list".text
  | .tuple _ => "tuple".text
  | .record _ => "dict".text
  | .host object => object.typeName

/-- The type tag that messages about arguments use. -/
def tag : Value → Text
  | .undefined => "undefined".text
  | .null => "null".text
  | .bool _ => "boolean".text
  | .int _ | .float _ => "number".text
  | .text _ => "string".text
  | .list _ | .tuple _ => "array".text
  | .record _ => "object".text
  | .host object => object.typeName

end Value

end RpcContract
