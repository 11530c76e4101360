import RpcContract.Number.DigitLimit
import RpcContract.Validation

/-!
# Failures

Everything that can go wrong, as causes.  A failure knows its kind, the message that is shown for
it, and, when it belongs to this layer, whether the caller is to blame for it.
-/

namespace RpcContract

/-! ## Failures of data that has a fixed form -/

/-- What is wrong with one field. -/
inductive FieldComplaint where
  | required
  | unknownField
  | notText
  | notList
  | notMapping
  /-- An object was wanted for the form with the given name. -/
  | notForm (form : Text)
  | unreadableBool
  | notBool
  /-- A text that is to be read holds a surrogate. -/
  | notUnicode
  | blankName
  deriving Repr, DecidableEq

/-- The code of a complaint. -/
def FieldComplaint.code : FieldComplaint → Text
  | .required => "missing".text
  | .unknownField => "extra_forbidden".text
  | .notText => "string_type".text
  | .notList => "list_type".text
  | .notMapping => "dict_type".text
  | .notForm _ => "model_type".text
  | .unreadableBool => "bool_parsing".text
  | .notBool => "bool_type".text
  | .notUnicode => "string_unicode".text
  | .blankName => "value_error".text

/-- The wording of a complaint. -/
def FieldComplaint.wording : FieldComplaint → Text
  | .required => "Field required".text
  | .unknownField => "Extra inputs are not permitted".text
  | .notText => "Input should be a valid string".text
  | .notList => "Input should be a valid list".text
  | .notMapping => "Input should be a valid dictionary".text
  | .notForm form => "Input should be a valid dictionary or instance of ".text ++ form
  | .unreadableBool => "Input should be a valid boolean, unable to interpret input".text
  | .notBool => "Input should be a valid boolean".text
  | .notUnicode =>
    "Input should be a valid string, unable to parse raw data as a unicode string".text
  | .blankName => "Value error, parameter name must not be empty".text

/-- A complaint and the names and positions that lead to its field. -/
structure FieldError where
  location : List Value
  complaint : FieldComplaint
  deriving Repr

/-! ## Failures of registration -/

/-- Why a registry cannot be built or read as requested. -/
inductive RegistryFault where
  | frozen (ns name : Text)
  | notCallable (ns name shown : Text)
  | alreadyRegistered (ns name entry : Text)
  | malformedDeclaration (shown : Text)
  | missingFunction (source name ns : Text)
  | unknownModule (source ns : Text)
  | malformedParam (shown ns function : Text)
  | other (message : Text)
  deriving Repr, DecidableEq

/-- The wording of a registry fault. -/
def RegistryFault.wording : RegistryFault → Text
  | .frozen ns name =>
    "Cannot register ".text ++ Text.quoted ns ++ ":".text ++ Text.quoted name
      ++ ": registry is frozen".text
  | .notCallable ns name shown =>
    "Cannot register ".text ++ Text.quoted ns ++ ":".text ++ Text.quoted name ++ ": ".text ++ shown
      ++ " is not callable".text
  | .alreadyRegistered ns name entry =>
    "Function already registered for namespace=".text ++ Text.quoted ns ++ ", name=".text
      ++ Text.quoted name ++ ": ".text ++ entry
  | .malformedDeclaration shown => "Invalid parameter declaration: ".text ++ shown
  | .missingFunction source name ns =>
    "Module ".text ++ Text.quoted source ++ " has no attribute ".text ++ Text.quoted name
      ++ " for namespace ".text ++ Text.quoted ns
  | .unknownModule source ns =>
    "Cannot import module ".text ++ Text.quoted source ++ " for namespace ".text
      ++ Text.quoted ns
  | .malformedParam shown ns function =>
    "Invalid parameter ".text ++ shown ++ " for ".text ++ ns ++ ":".text ++ function
      ++ ": expected a mapping with a 'name'".text
  | .other message => message

/-! ## Errors that functions raise -/

/-- The kinds of error that functions and the hosting process raise. -/
inductive ErrorKind where
  | value
  | key
  | runtime
  | type
  | attribute
  | overflow
  /-- There is not enough memory. -/
  | memory
  | fileNotFound
  | isDirectory
  /-- The operating system refuses for any other reason. -/
  | system
  | jsonDecode
  deriving Repr, DecidableEq

/-- The name of a kind of error. -/
def ErrorKind.name : ErrorKind → Text
  | .value => "ValueError".text
  | .key => "KeyError".text
  | .runtime => "RuntimeError".text
  | .type => "TypeError".text
  | .attribute => "AttributeError".text
  | .overflow => "OverflowError".text
  | .memory => "MemoryError".text
  | .fileNotFound => "FileNotFoundError".text
  | .isDirectory => "IsADirectoryError".text
  | .system => "OSError".text
  | .jsonDecode => "JSONDecodeError".text

/-- The message of an error with its arguments: nothing, the one argument, or all of them as a
tuple.  A missing key is shown quoted. -/
def ErrorKind.message (kind : ErrorKind) : List Value → Text
  | [] => []
  | [v] => if kind = .key then v.display else v.bare
  | vs => (Value.tuple vs).display

/-! ## All failures -/

/-- What a rejected call reports. -/
structure Report where
  reason : Value
  ns : Option Text
  function : Option Text
  place : Option Value
  deriving Repr

/-- The name of a function within its namespace. -/
def qualifiedName (ns function : Text) : Text := ns ++ ":".text ++ function

/-- The reason, behind the call that it is about when that is known. -/
def Report.message (report : Report) : Text :=
  match report.ns, report.function with
  | some ns, some function =>
    "RPC call to \"".text ++ qualifiedName ns function ++ "\": ".text ++ report.reason.bare
  | _, _ => report.reason.bare

inductive Failure where
  | namespaceNotFound (ns : Text)
  | functionNotFound (ns function : Text)
  /-- The arguments of a call violate their declaration. -/
  | validation (report : Report)
  /-- The body of a request is malformed. -/
  | requestFormat (report : Report)
  /-- The function of a call raised a failure of its own. -/
  | invocation (ns function : Text) (cause : Failure)
  | contextNotFound (message : Text)
  | registry (fault : RegistryFault)
  /-- A failure of this layer that is none of the others. -/
  | general (message : Text)
  /-- Data does not have the form with the given name. -/
  | form (name : Text) (errors : List FieldError)
  /-- An error that a function or the hosting process raised. -/
  | raised (kind : ErrorKind) (arguments : List Value)
  deriving Repr

namespace Failure

/-- The message that is shown outside every context scope. -/
def noContext : Failure := .contextNotFound "Internal error: Couldn't find RPC context".text

/-- The failure of a body that is no request, with its reason. -/
def malformedRequest (reason : Text) : Failure :=
  .requestFormat ⟨.text ("Malformed RPC request body: ".text ++ reason), none, none, none⟩

/-- An error with a message. -/
def error (kind : ErrorKind) (message : Text) : Failure := .raised kind [.text message]

/-- The failure of looking up something on an object of a type that has no such thing. -/
def noAttribute (typeName name : Text) : Failure :=
  error .attribute ("'".text ++ typeName ++ "' object has no attribute '".text ++ name ++ "'".text)

/-- The failure of looking up something by a value that cannot be a key. -/
def unhashable (v : Value) : Failure :=
  error .type ("unhashable type: '".text ++ v.typeName ++ "'".text)

/-- The failure that rejects the arguments of a call, as far as the call is named. -/
def ofRejection (ns function : Option Text) : Rejection → Failure
  | .violation v => .validation ⟨.text v.reason, ns, function, some v.place⟩
  | .unusable typeName => noAttribute typeName "endswith".text

/-- The name of the kind of a failure. -/
def kind : Failure → Text
  | .namespaceNotFound _ => "NamespaceNotFound".text
  | .functionNotFound _ _ => "FunctionNotFound".text
  | .validation _ => "ValidationError".text
  | .requestFormat _ => "RequestFormatError".text
  | .invocation _ _ _ => "InvocationError".text
  | .contextNotFound _ => "ContextNotFoundError".text
  | .registry _ => "RegistryError".text
  | .general _ => "TelephoneError".text
  | .form _ _ => "ValidationError".text
  | .raised kind _ => kind.name

/-- The message of a failure.  What a function raised is reported as it was raised. -/
def message : Failure → Text
  | .namespaceNotFound ns => "RPC namespace \"".text ++ ns ++ "\" not found.".text
  | .functionNotFound ns function =>
    "RPC function \"".text ++ qualifiedName ns function
      ++ "\" not found or is not a function.".text
  | .validation report | .requestFormat report => report.message
  | .invocation _ _ cause => cause.message
  | .contextNotFound message | .general message => message
  | .registry fault => fault.wording
  | .form name errors =>
    let count := errors.length
    Binary64.digitsText count ++ " validation error".text
      ++ (if count = 1 then [] else "s".text) ++ " for ".text ++ name
  | .raised kind arguments => kind.message arguments

/-- Whether the failure is one of this layer's own. -/
def isOwn : Failure → Bool
  | .form _ _ | .raised _ _ => false
  | _ => true

/-- Whether the caller is to blame, for the failures of this layer. -/
def isClientError? : Failure → Option Bool
  | .namespaceNotFound _ | .functionNotFound _ _ | .validation _ | .requestFormat _ => some true
  | .invocation _ _ _ | .contextNotFound _ | .registry _ | .general _ => some false
  | .form _ _ | .raised _ _ => none

end Failure

end RpcContract
