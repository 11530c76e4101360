import RpcContract.Registry.Function

/-!
# Signatures

The arguments that a function takes by itself, whatever a registry declares for it.  A call with too
many or too few of them fails before the function runs.
-/

namespace RpcContract

/-- The arguments that a function takes. -/
structure Signature where
  /-- The name that messages use. -/
  name : Text
  /-- The arguments that must be given. -/
  required : List Text
  /-- How many more may be given. -/
  optional : Nat
  /-- Whether any number of arguments may follow. -/
  unbounded : Bool
  /-- How many arguments every call passes besides the given ones. -/
  implicit : Nat
  deriving Repr

namespace Signature

/-- A function of arguments that all must be given. -/
def fixed (name : String) (required : List String) : Signature :=
  ⟨name.text, required.map String.text, 0, false, 0⟩

/-- A function of any number of arguments. -/
def anyNumber (name : String) : Signature := ⟨name.text, [], 0, true, 0⟩

/-- Names listed as a sentence lists them. -/
def enumerate : List Text → Text
  | [] => []
  | [a] => a
  | [a, b] => a ++ " and ".text ++ b
  | names => Text.join ", ".text names.dropLast ++ ", and ".text ++ names.getLastD []

/-- An ending that is there for every number but one. -/
def plural (n : Nat) : Text := if n = 1 then [] else "s".text

/-- The failure of a call with too many arguments. -/
def tooMany (s : Signature) (given : Nat) : Failure :=
  let least := s.required.length + s.implicit
  let most := least + s.optional
  let given := given + s.implicit
  let taken :=
    if s.optional = 0 then Binary64.digitsText most
    else "from ".text ++ Binary64.digitsText least ++ " to ".text ++ Binary64.digitsText most
  let ending := if s.optional = 0 then plural most else "s".text
  .error .type
    (s.name ++ "() takes ".text ++ taken ++ " positional argument".text ++ ending
      ++ " but ".text ++ Binary64.digitsText given
      ++ (if given = 1 then " was given".text else " were given".text))

/-- The failure of a call without some of the arguments that must be given. -/
def missing (s : Signature) (names : List Text) : Failure :=
  .error .type
    (s.name ++ "() missing ".text ++ Binary64.digitsText names.length
      ++ " required positional argument".text ++ plural names.length ++ ": ".text
      ++ enumerate (names.map Text.quoted))

/-- Checks the number of arguments. -/
def check (s : Signature) (args : List Value) : Except Failure Unit :=
  if !s.unbounded && s.required.length + s.optional < args.length then
    .error (s.tooMany args.length)
  else
    match s.required.drop args.length with
    | [] => .ok ()
    | names => .error (s.missing names)

/-- Runs a program with arguments, if their number is right. -/
def guard (s : Signature) (run : List Value → Program Activity) (args : List Value) :
    Program Activity :=
  match s.check args with
  | .ok () => run args
  | .error failure => .fail failure

/-- The function with a signature that behaves in a given way. -/
def function (s : Signature) (behaviour : Behaviour) : Function :=
  ⟨s.name, "function".text, some s.name, behaviour⟩

/-- A function that runs at once. -/
def immediate (s : Signature) (run : List Value → Program Activity) : Function :=
  s.function (.immediate (s.guard run))

/-- A function that yields something to wait for. -/
def awaitable (s : Signature) (run : List Value → Program Activity) : Function :=
  s.function (.awaitable (s.guard run))

end Signature

end RpcContract
