import RpcContract.Form

/-!
# Requests

A request names a function, gives it arguments and brings the context of its host along.  On the
wire it is an object whose two names may each be spelled in two ways; whatever else the object
holds, a context included, is ignored.
-/

namespace RpcContract

/-- A call of one function. -/
structure Request where
  ns : Text
  function : Text
  /-- The arguments as they came over the wire. -/
  args : List Value
  /-- The context of the host, which is never read from the wire. -/
  context : Value
  deriving Repr

namespace Request

def nsAlias : Text := "filePath".text

def nsField : Text := "namespace".text

def functionAlias : Text := "functionName".text

def functionField : Text := "function_name".text

def argsField : Text := "args".text

def contextField : Text := "context".text

/-- Reads a request from an object with its fields.  Anything may stand for its context, and there
need be none. -/
def ofFields (entries : Assoc Value) : Reading Request :=
  let ns := Form.aliasedField Form.text nsAlias nsField [] entries
  let function := Form.aliasedField Form.text functionAlias functionField [] entries
  let args := Form.field Form.anyList (some []) argsField [] entries
  let context := Form.field Form.anything (some .null) contextField [] entries
  .zipWith (fun call context => ⟨call.1.1, call.1.2, call.2, context⟩)
    (.zipWith Prod.mk (.zipWith Prod.mk ns function) args) context

/-- Reads the members of a wire body.  The context of the host is written over whatever the body has
in its place. -/
def ofMembers (context : Value) (entries : Assoc Value) : Reading Request :=
  ofFields (Assoc.put contextField context entries)

/-- Reads a wire body. -/
def read (body context : Value) : Except Failure Request :=
  match body with
  | .record entries => Reading.orFail "RpcRequest".text (ofMembers context entries)
  | other => .error (.error .type
      ("'".text ++ other.typeName ++ "' object is not a mapping".text))

/-- The name of the function within its namespace. -/
def qualifiedName (r : Request) : Text := RpcContract.qualifiedName r.ns r.function

/-- The request under its own names. -/
def toRecord (r : Request) : Value :=
  .record [(nsField, .text r.ns), (functionField, .text r.function), (argsField, .list r.args)]

/-- A wire body. -/
def wireBody (ns function args : Value) : Value :=
  .record [(nsAlias, ns), (functionAlias, function), (argsField, args)]

/-- The request as a wire body. -/
def toWire (r : Request) : Value := wireBody (.text r.ns) (.text r.function) (.list r.args)

end Request

end RpcContract
