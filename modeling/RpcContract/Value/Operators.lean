import RpcContract.Failure

/-!
# Operators on values

What the operators that functions use do with values of any kind, and how they fail on the values
that they are not for.
-/

namespace RpcContract.Value

/-- A failure that names the types of both operands. -/
def unsupported (operator : Text) (a b : Value) : Failure :=
  .error .type
    ("unsupported operand type(s) for ".text ++ operator ++ ": '".text ++ a.typeName
      ++ "' and '".text ++ b.typeName ++ "'".text)

/-- The whole number that a value is; truth values are zero and one. -/
def toWhole? : Value → Option Int
  | .bool b => some (if b then 1 else 0)
  | .int n => some n
  | _ => none

/-- Numbers, of either kind. -/
inductive Number where
  | whole (n : Int)
  | float (x : Binary64)

/-- The number that a value is. -/
def toNumber? (v : Value) : Option Number :=
  match v with
  | .float x => some (.float x)
  | _ => v.toWhole?.map .whole

/-- A number as a floating one, if it is not too large. -/
def Number.toFloat : Number → Except Failure Float
  | .float x => .ok x.toFloat
  | .whole n =>
    let x := Binary64.ofInt n
    if x.isInfinite then .error (.error .overflow "int too large to convert to float".text)
    else .ok x.toFloat

/-- Whole numbers stay whole; with a floating one among them both are. -/
def arithmetic (onWhole : Int → Int → Int) (onFloat : Float → Float → Float) :
    Number → Number → Except Failure Value
  | .whole m, .whole n => .ok (.int (onWhole m n))
  | a, b => do
    let x ← a.toFloat
    let y ← b.toFloat
    return .float (.ofFloat (onFloat x y))

/-- The failure to append something of another kind. -/
def notAppended (kind : Text) (b : Value) : Failure :=
  .error .type
    ("can only concatenate ".text ++ kind ++ " (not \"".text ++ b.typeName ++ "\") to ".text
      ++ kind)

/-- The sum of two numbers, or one sequence after the other. -/
def add (a b : Value) : Except Failure Value :=
  match a.toNumber?, b.toNumber? with
  | some m, some n => arithmetic (· + ·) (· + ·) m n
  | _, _ =>
    match a, b with
    | .text t, .text u => .ok (.text (t ++ u))
    | .list xs, .list ys => .ok (.list (xs ++ ys))
    | .tuple xs, .tuple ys => .ok (.tuple (xs ++ ys))
    | .text _, _ | .list _, _ | .tuple _, _ => .error (notAppended a.typeName b)
    | _, _ => .error (unsupported "+".text a b)

/-- The greatest length that a sequence can be asked to have. -/
def greatestLength : Nat := 0x7FFFFFFFFFFFFFFF

/-- The greatest length for which there is memory. -/
def memoryLength : Nat := 0x8000000

/-- A sequence written a number of times; `refusal` says what is wrong with a length beyond all
bounds. -/
def repeated {α : Type} (refusal : Failure) (xs : List α) (times : Nat) :
    Except Failure (List α) :=
  let length := xs.length * times
  if length = 0 then .ok []
  else if greatestLength < length then .error refusal
  else if memoryLength < length then .error (.raised .memory [])
  else .ok (List.replicate times xs).flatten

/-- A sequence repeated as often as a value says; not at all for a number below zero. -/
def repeatBy {α : Type} (make : List α → Value) (refusal : Failure) (xs : List α) (times : Value) :
    Except Failure Value :=
  match times.toWhole? with
  | none =>
    .error (.error .type
      ("can't multiply sequence by non-int of type '".text ++ times.typeName ++ "'".text))
  | some n =>
    if -0x8000000000000000 ≤ n ∧ n < 0x8000000000000000 then (repeated refusal xs n.toNat).map make
    else .error (.error .overflow "cannot fit 'int' into an index-sized integer".text)

/-- A value repeated as often as another says, if it is a sequence. -/
def repeat? (v times : Value) : Option (Except Failure Value) :=
  match v with
  | .text t =>
    some (repeatBy .text (.error .overflow "repeated string is too long".text) t times)
  | .list items => some (repeatBy .list (.raised .memory []) items times)
  | .tuple items => some (repeatBy .tuple (.raised .memory []) items times)
  | _ => none

/-- The product of two numbers, or a sequence repeated.  Of two sequences the first is the one to
be repeated. -/
def multiply (a b : Value) : Except Failure Value :=
  match a.toNumber?, b.toNumber? with
  | some m, some n => arithmetic (· * ·) (· * ·) m n
  | _, _ =>
    match repeat? a b <|> repeat? b a with
    | some result => result
    | none => .error (unsupported "*".text a b)

/-- The member with a name. -/
def memberAt (v : Value) (name : Text) : Except Failure Value :=
  match v with
  | .record entries =>
    match Assoc.find? name entries with
    | some value => .ok value
    | none => .error (.error .key name)
  | .text _ => .error (.error .type "string indices must be integers, not 'str'".text)
  | .list _ | .tuple _ =>
    .error (.error .type (v.typeName ++ " indices must be integers or slices, not str".text))
  | other =>
    .error (.error .type ("'".text ++ other.typeName ++ "' object is not subscriptable".text))

/-- The texts that a list holds, or the first item that is none. -/
def textItems : Nat → List Value → Except Failure (List Text)
  | _, [] => .ok []
  | index, .text t :: rest => (textItems (index + 1) rest).map (t :: ·)
  | index, other :: _ =>
    .error (.error .type
      ("sequence item ".text ++ Binary64.digitsText index ++ ": expected str instance, ".text
        ++ other.typeName ++ " found".text))

/-- The texts that a value holds, with a separator between neighbours. -/
def joined (separator : Text) (v : Value) : Except Failure Text :=
  match v with
  | .list items | .tuple items => (textItems 0 items).map (Text.join separator)
  | .text t => .ok (Text.join separator (t.map fun c => [c]))
  | .record entries => .ok (Text.join separator (Assoc.names entries))
  | _ => .error (.error .type "can only join an iterable".text)

/-- How long a value asks to wait, where a number is wanted: not at all up to zero. -/
def waitingTime (v : Value) : Except Failure (Option Float) :=
  match v.toNumber? with
  | some (.whole n) => if n ≤ 0 then .ok none else (Number.whole n).toFloat.map some
  | some (.float x) => .ok (if x.toFloat ≤ 0 then none else some x.toFloat)
  | none =>
    .error (.error .type
      ("'<=' not supported between instances of '".text ++ v.typeName ++ "' and 'int'".text))

end RpcContract.Value
