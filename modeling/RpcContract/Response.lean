import RpcContract.Failure

/-!
# Responses

The outcome of a dispatch as a transport status and a body.  What was rejected before the function
ran is the caller's fault, what the function raised is the server's.
-/

namespace RpcContract

/-- A transport status and a body. -/
structure Response where
  status : Nat
  body : Value
  deriving Repr

namespace Failure

/-- The transport status of a failure. -/
def status : Failure → Nat
  | .namespaceNotFound _ | .functionNotFound _ _ => 404
  | .validation _ | .requestFormat _ => 400
  | _ => 500

/-- The kind and the message of a failure, as data. -/
def describe (f : Failure) : Value :=
  .record [("type".text, .text f.kind), ("message".text, .text f.message)]

end Failure

namespace Response

/-- The response to a call that returned: the result that its envelope holds, or null.  Only an
object is an envelope. -/
def success : Value → Except Failure Response
  | .record envelope =>
    .ok ⟨200, .record [("result".text, (Assoc.find? "result".text envelope).getD .null)]⟩
  | other => .error (.noAttribute other.typeName "get".text)

/-- The response to a call that failed. -/
def failure (f : Failure) : Response := ⟨f.status, .record [("error".text, f.describe)]⟩

end Response

end RpcContract
