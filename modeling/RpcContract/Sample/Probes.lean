import RpcContract.Sample.Greetings

/-!
# Sample functions: probes

Functions that show what reaches them: their arguments, how many there are, the surroundings in
which they run, and failures of every kind.
-/

namespace RpcContract.Sample

/-- Notes how many arguments it gets and returns them. -/
def spy : Function :=
  (Signature.anyNumber "spy").immediate fun args => .emit (.counted args.length) (.pure (.list args))

def echo : Function := (Signature.anyNumber "echo").awaitable fun args => .pure (.list args)

def identity : Function :=
  { Signature.fixed "identity" [] with optional := 1 }.immediate fun args =>
    .pure (argument args 0 .null)

def defaults : Function :=
  { Signature.fixed "defaults" ["a"] with optional := 2 }.immediate fun args =>
    .pure (.list [argument args 0 .null, argument args 1 (.text "B".text),
      argument args 2 (.text "C".text)])

def two : Function :=
  (Signature.fixed "two" ["first", "second"]).immediate fun args => .pure (.list args)

/-- The failure that a kind and a message ask for; an unknown kind is a key that is missing. -/
def askedFailure (kind message : Value) : Failure :=
  match kind with
  | .text t =>
    if t = "value".text then .raised .value [message]
    else if t = "key".text then .raised .key [message]
    else if t = "runtime".text then .raised .runtime [message]
    else if t = "type".text then .raised .type [message]
    else .raised .key [kind]
  | other => if other.isKey then .raised .key [other] else .unhashable other

def fail : Function :=
  (Signature.fixed "fail" ["kind", "message"]).immediate fun args =>
    .fail (askedFailure (argument args 0 .null) (argument args 1 .null))

def failAsync : Function :=
  (Signature.fixed "fail_async" ["message"]).awaitable fun args =>
    .fail (.raised .runtime [argument args 0 .null])

def failEmpty : Function :=
  (Signature.fixed "fail_empty" []).immediate fun _ => .fail (.raised .value [])

def failValidation : Function :=
  (Signature.fixed "fail_validation" ["message"]).immediate fun args =>
    .fail (.validation ⟨argument args 0 .null, some "inner".text, some "deep".text, none⟩)

def failNotFound : Function :=
  (Signature.fixed "fail_not_found" ["message"]).immediate fun args =>
    .fail (.functionNotFound "inner".text (argument args 0 .null).bare)

def contextProbe : Function := (Signature.fixed "ctx" []).immediate fun _ => .readContext .pure

def contextProbeAsync : Function :=
  (Signature.fixed "ctx_async" []).awaitable fun _ =>
    .observe fun ambient => .pure ambient.contextOrNull

/-- Looks at the context before, inside and after a scope of its own. -/
def nested : Function :=
  (Signature.fixed "nested" ["inner"]).immediate fun args =>
    .readContext fun before =>
      .scope (some (.context (argument args 0 .null))) (.readContext .pure) fun
        | .raised failure => .fail failure
        | .returned inside => .readContext fun behind => .pure (.list [before, inside, behind])

/-- Yields something to wait for without being awaitable itself. -/
def deferred : Function :=
  let signature := { Signature.fixed "deferred" [] with optional := 1 }
  signature.function (.deferred (signature.guard fun _ => .pure .null)
    fun args _ => .pure (.list [argument args 0 .null, .text "deferred".text]))

/-- The type of objects that can be called but have no name of their own. -/
def callableType : Text := "AsyncCallable".text

/-- An object that can be called but has no name of its own. -/
def asyncCallable : Function :=
  let signature : Signature := ⟨callableType ++ ".__call__".text, [], 1, false, 1⟩
  ⟨callableType, callableType, none, .awaitable (signature.guard fun args =>
    .observe fun ambient => .pure (.list [argument args 0 .null, ambient.contextOrNull]))⟩

/-- A type as a function that makes an object of it. -/
def maker (name : Text) (make : List Value → Program Activity) : Function :=
  ⟨name, "type".text, some name, .immediate make⟩

/-- Makes an object that can be called, from no arguments. -/
def callableMaker : Function :=
  maker callableType fun args =>
    if args.isEmpty then
      .pure (.host ⟨callableType, "<".text ++ callableType ++ " object>".text⟩)
    else .fail (.error .type (callableType ++ "() takes no arguments".text))

/-- Makes a failure without raising it, from arguments with the given names. -/
def failureMaker (kind : String) (required : List String) (make : List Value → Failure) :
    Function :=
  let signature := { Signature.fixed (kind ++ ".__init__") required with implicit := 1 }
  maker kind.text (signature.guard fun args => .pure (.host ⟨kind.text, (make args).message⟩))

def validationMaker : Function :=
  failureMaker "ValidationError" ["reason"] fun args =>
    .validation ⟨argument args 0 .null, none, none, none⟩

def notFoundMaker : Function :=
  failureMaker "FunctionNotFound" ["namespace", "function_name"] fun args =>
    .functionNotFound (argument args 0 .null).bare (argument args 1 .null).bare

/-- Calls its second argument with the first as context.  No argument that comes over the wire can
be called. -/
def withContext : Function :=
  { Signature.fixed "with_context" ["context", "body"] with unbounded := true }.immediate fun args =>
    .fail (.error .type
      ("'".text ++ (argument args 1 .null).typeName ++ "' object is not callable".text))

/-- The module of these functions. -/
def probes : Source where
  name := "oracle_fns".text
  attributes :=
    [("__name__".text, .value (.text "oracle_fns".text)), ("__package__".text, .value (.text [])),
      entry getContext, entry getContextOrNull, entry withContext, entry validationMaker,
      entry notFoundMaker, entry callableMaker, entry spy, entry echo, entry identity,
      entry defaults, entry two, entry fail, entry failAsync, entry failEmpty,
      entry failValidation, entry failNotFound, entry contextProbe, entry contextProbeAsync,
      entry nested, entry deferred, ("async_callable".text, .function asyncCallable),
      ("NUMBER".text, .value (.int 42)), ("TEXT".text, .value (.text "it's text".text)),
      ("NOTHING".text, .value .null), ("CALLS".text, .value (.list []))]

/-- The modules that there are. -/
def sources : List Source := [greetings, probes]

/-- The attribute of a module that a name stands for. -/
def find? (name : Text) : Option Export :=
  Assoc.find? name probes.attributes <|> Assoc.find? name greetings.attributes

end RpcContract.Sample
