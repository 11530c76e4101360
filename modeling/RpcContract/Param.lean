import RpcContract.Schema.Compile

/-!
# Parameters

A parameter has a name, the schema of its type and a mark that says whether it may be left out.  In
registries that are written by hand the name may be any value that counts as true, and a mark may
be any value at all.
-/

namespace RpcContract

/-- A declared parameter of an exported function. -/
structure Param where
  name : Value
  type : Schema
  /-- What says whether the parameter may be left out. -/
  mark : Value
  deriving Repr, Inhabited

namespace Param

/-- Whether the parameter may be left out: its mark counts as true. -/
def optional (p : Param) : Bool := p.mark.isTrue

/-- The name without white space around it and without one question mark at its end, and whether
it had one. -/
def splitName (name : Text) : Text × Bool :=
  let name := Text.trim name
  if name.getLast? = some '?' then (name.dropLast, true) else (name, false)

/-- The parameter with a declared name, type text and mark.  A question mark behind the name makes it
optional, whatever the mark. -/
def ofText (name type : Text) (mark : Value) : Param :=
  let (name, marked) := splitName name
  ⟨.text name, Schema.compile type, if marked then .bool true else mark⟩

/-- The number of arguments that must be given. -/
def least (params : List Param) : Nat := params.countP (!·.optional)

/-- The number of arguments that may be given. -/
def most (params : List Param) : Nat := params.length

end Param

end RpcContract
