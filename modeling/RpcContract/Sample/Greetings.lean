import RpcContract.Registry.Builder
import RpcContract.Registry.Signature
import RpcContract.Value.Operators

/-!
# Sample functions: greetings and sums

The functions of a small application: they greet, add, describe objects and say whom they work for.
-/

namespace RpcContract.Sample

/-- The argument at a position, or what stands for it when it is not given. -/
def argument (args : List Value) (index : Nat) (otherwise : Value) : Value :=
  args.getD index otherwise

/-- A function by its name. -/
def entry (f : Function) : Text × Export := (f.shown, .function f)

def hello : Function :=
  (Signature.fixed "hello" ["name"]).awaitable fun args =>
    .pure (.text ("Hello, ".text ++ (argument args 0 .null).bare ++ "!".text))

def add : Function :=
  (Signature.fixed "add" ["a", "b"]).awaitable fun args =>
    .ofExcept ((argument args 0 .null).add (argument args 1 .null))

def errorFunction : Function :=
  (Signature.fixed "error_function" []).awaitable fun _ =>
    .fail (.error .value "This is a test error".text)

def noArguments : Function :=
  (Signature.fixed "function_with_no_args" []).awaitable fun _ =>
    .pure (.text "No arguments here!".text)

def optionalArgument : Function :=
  { Signature.fixed "function_with_optional_arg" [] with optional := 1 }.awaitable fun args =>
    let name := argument args 0 .null
    let name := if name.isTrue then name else .text "world".text
    .pure (.text ("Hello, ".text ++ name.bare ++ "!".text))

/-- Describes a person. -/
def describePerson (data : Value) : Except Failure Value := do
  let name ← data.memberAt "name".text
  let age ← data.memberAt "age".text
  return .text ("Received object for ".text ++ name.bare ++ " who is ".text ++ age.bare
    ++ " years old.".text)

def processObject : Function :=
  (Signature.fixed "process_object" ["data"]).awaitable fun args =>
    .ofExcept (describePerson (argument args 0 .null))

/-- Describes a user and what the user may do. -/
def describeUser (data : Value) : Except Failure Value := do
  let user ← data.memberAt "user".text
  let name ← user.memberAt "name".text
  let roles ← data.memberAt "roles".text
  let roles ← roles.joined ", ".text
  return .text ("User ".text ++ name.bare ++ " has roles: ".text ++ roles ++ ".".text)

def processMixed : Function :=
  (Signature.fixed "process_mixed" ["data"]).awaitable fun args =>
    .ofExcept (describeUser (argument args 0 .null))

/-- Waits for a while and then says whose request is served. -/
def whoami : Function :=
  (Signature.fixed "whoami" ["delay"]).awaitable fun args =>
    match (argument args 0 .null).waitingTime with
    | .error failure => .fail failure
    | .ok _ => .suspend (.readContext fun context => .ofExcept (context.memberAt "user".text))

def syncMultiply : Function :=
  (Signature.fixed "sync_multiply" ["a", "b"]).immediate fun args =>
    .ofExcept ((argument args 0 .null).multiply (argument args 1 .null))

def syncContextUser : Function :=
  (Signature.fixed "sync_context_user" []).immediate fun _ =>
    .observe fun ambient =>
      let context := ambient.contextOrNull
      if context.isTrue then .ofExcept (context.memberAt "user".text) else .pure .null

def getContext : Function :=
  (Signature.fixed "get_context" []).immediate fun _ => .readContext .pure

def getContextOrNull : Function :=
  (Signature.fixed "get_context_or_null" []).immediate fun _ =>
    .observe fun ambient => .pure ambient.contextOrNull

/-- The module of these functions. -/
def greetings : Source where
  name := "rpc_fixtures".text
  attributes :=
    [("__name__".text, .value (.text "rpc_fixtures".text)),
      ("__doc__".text,
        .value (.text "Functions exported through the test manifests and dispatcher tests.".text)),
      ("__package__".text, .value (.text [])), entry getContext,
      entry getContextOrNull, entry hello, entry add, entry errorFunction, entry noArguments,
      entry optionalArgument, entry processObject, entry processMixed, entry whoami,
      entry syncMultiply, entry syncContextUser, ("not_a_function".text, .value (.int 42))]

end RpcContract.Sample
