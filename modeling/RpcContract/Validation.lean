import RpcContract.Param
import RpcContract.Schema.Display

/-!
# Checking arguments

Arguments are checked against the declared parameters before a function is called.  Primitive types,
arrays and object schemas are enforced; every other type text accepts every value.  Absent values
pass wherever the caller allows null.  The check stops at the first violation, which says where in
the argument it was found.
-/

namespace RpcContract

/-! ## Where a violation is -/

/-- One step into a value. -/
inductive Accessor where
  | member (name : Text)
  | item (index : Nat)
  deriving Repr, DecidableEq

/-- How a step is written in a path. -/
def Accessor.shown : Accessor → Text
  | .member name => ".".text ++ name
  | .item index => "[".text ++ Binary64.digitsText index ++ "]".text

/-- A place inside an argument. -/
structure Path where
  /-- The name of the argument. -/
  start : Value
  steps : List Accessor
  deriving Repr

namespace Path

/-- The argument itself. -/
def root (start : Value) : Path := ⟨start, []⟩

/-- One step further. -/
def step (p : Path) (accessor : Accessor) : Path := ⟨p.start, p.steps ++ [accessor]⟩

/-- The path as it is written. -/
def shown (p : Path) : Text := p.start.bare ++ p.steps.flatMap Accessor.shown

/-- The path as a value: the name itself, as long as there is no step. -/
def toValue (p : Path) : Value := if p.steps.isEmpty then p.start else .text p.shown

end Path

/-! ## Violations -/

/-- A way in which arguments violate their declaration. -/
inductive Violation where
  /-- The value at a place is not what is declared there. -/
  | mismatch (path : Path) (expected : Schema) (actual : Text)
  /-- A declared member is missing from the object at a place. -/
  | missing (path : Path) (name : Text)
  /-- There are too few or too many arguments. -/
  | count (least most given : Nat)
  /-- A required argument is not given. -/
  | notProvided (name : Value)
  deriving Repr

namespace Violation

/-- What is wrong. -/
def reason : Violation → Text
  | .mismatch path expected actual =>
    "Argument '".text ++ path.shown ++ "' expected type '".text ++ expected.expectation
      ++ "' but got '".text ++ actual ++ "'.".text
  | .missing path name =>
    "Missing property '".text ++ name ++ "' in argument '".text ++ path.shown ++ "'.".text
  | .count least most given =>
    let expected :=
      if least = most then Binary64.digitsText most
      else Binary64.digitsText least ++ "-".text ++ Binary64.digitsText most
    "Expected ".text ++ expected ++ " arguments, but got ".text ++ Binary64.digitsText given
      ++ ".".text
  | .notProvided name =>
    "Argument for '".text ++ name.bare ++ "' is required but not provided.".text

/-- Where it is wrong. -/
def place : Violation → Value
  | .mismatch path _ _ | .missing path _ => path.toValue
  | .count _ _ _ => .text []
  | .notProvided name => name

end Violation

/-- Why a check did not pass. -/
inductive Rejection where
  | violation (v : Violation)
  /-- A schema was met that no value can be checked against; its type is named. -/
  | unusable (typeName : Text)
  deriving Repr

/-! ## Type texts -/

/-- A type text read as a base and the number of `[]` behind it, from its last character on. -/
def arrayPartsReversed : Text → Text × Nat
  | .char ']' :: .char '[' :: rest =>
    let (base, depth) := arrayPartsReversed rest
    (base, depth + 1)
  | t => (t.reverse, 0)

/-- A type text read as a base, which does not end in `[]`, and the number of `[]` behind it. -/
def arrayParts (t : Text) : Text × Nat := arrayPartsReversed t.reverse

/-- The type text with a base and a number of `[]` behind it. -/
def arrayText (base : Text) : Nat → Text
  | 0 => base
  | depth + 1 => arrayText base depth ++ "[]".text

/-- The tag that the values of a primitive type have. -/
def primitiveTag? (base : Text) : Option Text :=
  if base = "string".text ∨ base = "number".text ∨ base = "boolean".text then some base
  else none

/-! ## The check -/

/-- Whether absent values pass. -/
abbrev AllowNull := Bool

namespace Validation

/-- A mismatch at a place. -/
def mismatch (path : Path) (expected : Schema) (v : Value) : Except Rejection Unit :=
  .error (.violation (.mismatch path expected v.tag))

/-- Checks every item of a list, the first at `index`. -/
def checkEach (check : Value → Path → Except Rejection Unit) (path : Path) :
    Nat → List Value → Except Rejection Unit
  | _, [] => .ok ()
  | index, item :: rest =>
    match check item (path.step (.item index)) with
    | .error rejection => .error rejection
    | .ok () => checkEach check path (index + 1) rest

/-- Checks a value against a base type with a number of `[]` behind it. -/
def checkArray (allowNull : AllowNull) (base : Text) :
    Nat → Value → Path → Except Rejection Unit
  | 0, v, path =>
    if base = Schema.anyText then .ok ()
    else if v.isAbsent then
      if allowNull then .ok () else mismatch path (.text base) v
    else match primitiveTag? base with
      | some tag => if v.tag = tag then .ok () else mismatch path (.text base) v
      | none => .ok ()
  | depth + 1, v, path =>
    if v.isAbsent then
      if allowNull then .ok () else mismatch path (.text (arrayText base (depth + 1))) v
    else match v.items? with
      | some items => checkEach (checkArray allowNull base depth) path 0 items
      | none => mismatch path (.text (arrayText base (depth + 1))) v

mutual

/-- Checks a value against a schema. -/
def check (allowNull : AllowNull) : Schema → Value → Path → Except Rejection Unit
  | .text t, v, path => checkArray allowNull (arrayParts t).1 (arrayParts t).2 v path
  | .object form fields, v, path =>
    if v.isAbsent then
      if allowNull then .ok () else mismatch path (.object form fields) v
    else match v.members? with
      | some members => checkFields allowNull form fields members path
      | none => mismatch path (.object form fields) v
  | .raw schema, v, path =>
    if v.isAbsent then
      if allowNull then .ok () else mismatch path (.raw schema) v
    else .error (.unusable schema.typeName)

/-- Checks the members of an object against the declared fields, in declared order.  A field that is
marked as optional may be missing. -/
def checkFields (allowNull : AllowNull) (form : ObjectForm) :
    List (Field Schema) → Assoc Value → Path → Except Rejection Unit
  | [], _, _ => .ok ()
  | ⟨name, optional, schema⟩ :: rest, members, path =>
    match Assoc.find? name members with
    | none =>
      if form.hasMarks && optional then checkFields allowNull form rest members path
      else .error (.violation (.missing path name))
    | some v =>
      match check allowNull schema v (path.step (.member name)) with
      | .error rejection => .error rejection
      | .ok () => checkFields allowNull form rest members path

end

/-- Checks the number of arguments. -/
def checkCount (params : List Param) (given : Nat) : Except Rejection Unit :=
  if Param.least params ≤ given ∧ given ≤ Param.most params then .ok ()
  else .error (.violation (.count (Param.least params) (Param.most params) given))

/-- Checks arguments against parameters position by position.  An absent argument for an optional
parameter passes whatever its type. -/
def checkEachArg (allowNull : AllowNull) : List Param → List Value → Except Rejection Unit
  | [], _ => .ok ()
  | param :: params, [] =>
    if param.optional then checkEachArg allowNull params []
    else .error (.violation (.notProvided param.name))
  | param :: params, arg :: args =>
    if param.optional && arg.isAbsent then checkEachArg allowNull params args
    else
      match check allowNull param.type arg (.root param.name) with
      | .error rejection => .error rejection
      | .ok () => checkEachArg allowNull params args

/-- Checks the arguments of a call: first their number, then each of them. -/
def checkArgs (allowNull : AllowNull) (params : List Param) (args : List Value) :
    Except Rejection Unit :=
  match checkCount params args.length with
  | .error rejection => .error rejection
  | .ok () => checkEachArg allowNull params args

end Validation

end RpcContract
