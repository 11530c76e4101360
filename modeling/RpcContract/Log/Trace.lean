import RpcContract.Registry.Function

/-!
# Records of a trace
-/

namespace RpcContract

/-- A record and the call during which it was logged. -/
structure Logged where
  record : Record
  call : CallId
  deriving Repr

namespace Logged

/-- A record that was logged outside every call. -/
def outside (record : Record) : Logged := ⟨record, .outside⟩

/-- The records of a trace. -/
def ofTrace (trace : List (Event Activity)) : List Logged :=
  trace.filterMap fun
    | (a, .logged record) => some ⟨record, a.callId⟩
    | _ => none

end Logged

/-- The numbers of arguments that were noted in a trace. -/
def Activity.counts (trace : List (Event Activity)) : List Nat :=
  trace.filterMap fun
    | (_, .counted n) => some n
    | _ => none

end RpcContract
