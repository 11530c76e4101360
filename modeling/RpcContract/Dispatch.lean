import RpcContract.Config
import RpcContract.Registry.Plain
import RpcContract.Request
import RpcContract.Wire

/-!
# Dispatch

One call, from the body of a request to the value of a function.  What arrives is read as a
request; the function is looked up, the arguments are decoded and checked; then the function runs
with the context of the request around it.  Everything happens under the id of the call.  A call
that is rejected never reaches its function, and whatever a function raises is reported as the
failure of the invocation.
-/

namespace RpcContract

/-- What arrives. -/
inductive Incoming where
  /-- A wire body. -/
  | body (v : Value)
  /-- A request that was made by the host. -/
  | request (r : Request)
  deriving Repr

/-- The request that arrives.  One that was made by the host brings its own context. -/
def Incoming.toRequest (incoming : Incoming) (context : Value) : Except Failure Request :=
  match incoming with
  | .request r => .ok r
  | .body (.record entries) =>
    match Request.ofMembers context entries with
    | .ok r => .ok r
    | .error errors =>
      .error (.malformedRequest (Binary64.digitsText errors.length ++ " error(s)".text))
  | .body v => .error (.malformedRequest ("expected an object, got ".text ++ v.typeName))

/-- A call that was accepted: its function and its decoded arguments. -/
structure Accepted where
  target : Registered
  args : List Value

namespace Dispatch

/-- The logger that dispatch uses. -/
def logger : Text := "telephone.dispatcher".text

/-- What stands for something to wait for that nobody waits for. -/
def unawaited : Value :=
  .host ⟨"coroutine".text, "<coroutine>".text⟩

/-- Looks the function of a request up and checks the arguments. -/
def accept (registry : Registry) (config : Config) (r : Request) : Except Failure Accepted :=
  match registry.resolve r.ns r.function with
  | .error failure => .error failure
  | .ok target =>
    let args := Wire.decodeArgs r.args
    match Validation.checkArgs config.allowNull target.params args with
    | .error rejection => .error (.ofRejection (some r.ns) (some r.function) rejection)
    | .ok () => .ok ⟨target, args⟩

/-- Calls a function.  What it yields to wait for is waited for, unless it ran in a thread. -/
def call (inThread : Bool) (f : Function) (args : List Value) : Program Activity :=
  match f.behaviour with
  | .immediate run => if inThread then .scope none (run args) .finish else run args
  | .awaitable run => run args
  | .deferred start finish =>
    .andThen (start args) fun v => if inThread then .pure unawaited else finish args v

/-- A record of dispatch. -/
def report (level : Level) (message : Text) : Activity := .logged ⟨level, logger, message⟩

/-- The record of a rejected call. -/
def rejected (r : Request) (failure : Failure) : Activity :=
  report .warning
    ("Rejected RPC call ".text ++ r.qualifiedName ++ ": ".text ++ failure.message)

/-- The record of a call that is about to be made. -/
def invoking (r : Request) (count : Nat) : Activity :=
  report .debug
    ("Invoking ".text ++ r.qualifiedName ++ " with ".text ++ Binary64.digitsText count
      ++ " argument(s)".text)

/-- The record of a function that failed. -/
def failed (r : Request) (failure : Failure) : Activity :=
  report .error
    ("RPC function ".text ++ r.qualifiedName ++ " raised: ".text ++ failure.message)

/-- The record of a function that returned. -/
def completed (r : Request) : Activity := report .debug ("Completed ".text ++ r.qualifiedName)

/-- What a call that returned yields. -/
def envelope (v : Value) : Value := .record [("result".text, v)]

/-- Calls the function of an accepted request in the context of the request. -/
def invoke (config : Config) (r : Request) (accepted : Accepted) : Program Activity :=
  let args := Wire.materializeArgs accepted.args
  .emit (invoking r accepted.args.length) <|
    .scope (some (.context r.context))
      (.emit (.invoked r.ns r.function args) (call config.inThread accepted.target.fn args))
      fun
        | .raised failure => .emit (failed r failure) (.fail (.invocation r.ns r.function failure))
        | .returned v => .emit (completed r) (.pure (envelope v))

/-- Serves a request.  Only failures of this layer are recorded as rejections. -/
def serve (registry : Registry) (config : Config) (r : Request) : Program Activity :=
  match accept registry config r with
  | .ok accepted => invoke config r accepted
  | .error failure =>
    if failure.isOwn then .emit (rejected r failure) (.fail failure) else .fail failure

/-- Handles what arrives under a call id. -/
def handle (registry : Registry) (config : Config) (id : CallId) (context : Value)
    (incoming : Incoming) : Program Activity :=
  .scope (some (.callId id))
    (match incoming.toRequest context with
      | .ok r => serve registry config r
      | .error failure => .fail failure)
    .finish

end Dispatch

end RpcContract
