import RpcContract.Form

/-!
# Configuration of dispatch
-/

namespace RpcContract

/-- How calls are checked and run. -/
structure Config where
  /-- Whether absent values pass every check. -/
  allowNull : Bool
  /-- Whether functions that run at once run in a thread of their own. -/
  inThread : Bool
  deriving Repr, DecidableEq

namespace Config

/-- Absent values pass, and nothing runs in a thread. -/
def default : Config := ⟨true, false⟩

def allowNullField : Text := "allow_null".text

def inThreadField : Text := "run_sync_in_thread".text

/-- Reads a configuration; every field has a default and there are no others. -/
def read (data : Value) : Except Failure Config :=
  let form := "DispatcherConfig".text
  Reading.orFail form <| Form.object form [] (fun entries =>
    let allowNull := Form.field Form.bool (some default.allowNull) allowNullField [] entries
    let inThread := Form.field Form.bool (some default.inThread) inThreadField [] entries
    let rest := Form.onlyFields [allowNullField, inThreadField] [] entries
    .zipWith (fun config _ => config) (.zipWith Config.mk allowNull inThread) rest) data

end Config

end RpcContract
