import RpcContract.Log.Record
import RpcContract.Task.Program

/-!
# Functions

A function that can be called by name: what it is called, and the program that a call of it runs.
A call runs at once, or yields something to wait for, or runs a first part at once and leaves the
rest to be waited for.
-/

namespace RpcContract

/-- What happens while a call is served. -/
inductive Activity where
  /-- A record was logged. -/
  | logged (record : Record)
  /-- A function of a registry was called. -/
  | invoked (ns function : Text) (args : List Value)
  /-- A function noted how many arguments it was called with. -/
  | counted (arguments : Nat)
  deriving Repr

/-- What a call of a function does. -/
inductive Behaviour where
  /-- The call runs at once. -/
  | immediate (run : List Value → Program Activity)
  /-- The call yields something to wait for, and that runs. -/
  | awaitable (run : List Value → Program Activity)
  /-- The call runs `start` at once; what it yields is waited for and runs `finish`, which gets the
  value that `start` returned. -/
  | deferred (start : List Value → Program Activity)
      (finish : List Value → Value → Program Activity)

/-- A function that can be called by name. -/
structure Function where
  /-- How the function is shown. -/
  shown : Text
  /-- The name of its type. -/
  typeName : Text
  /-- The name that the function has of its own, if it has one. -/
  ownName : Option Text
  behaviour : Behaviour

/-- What stands where a function is wanted. -/
inductive Export where
  | function (f : Function)
  /-- A value that cannot be called. -/
  | value (v : Value)

namespace Export

/-- How an export is named when its registry entry is shown. -/
def shown : Export → Text
  | .function f => f.shown
  | .value v => v.typeName

/-- How an export is shown as a value. -/
def display : Export → Text
  | .function f => "<function ".text ++ f.shown ++ ">".text
  | .value v => v.display

/-- The name of the export's type. -/
def typeName : Export → Text
  | .function f => f.typeName
  | .value v => v.typeName

/-- The name that an export has of its own. -/
def ownName? : Export → Option Text
  | .function f => f.ownName
  | .value _ => none

end Export

end RpcContract
