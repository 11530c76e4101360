import RpcContract.Failure

/-!
# Reading data with a fixed form

Configuration, requests and manifests are objects with known fields.  Reading such an object finds
everything that is wrong with it, in the order in which its fields are declared, and says where:
every error has the names and positions that lead to its field.
-/

namespace RpcContract

/-- The names and positions that lead to a place in the data, from the outside in. -/
abbrev Location := List Value

/-- What reading data yields: a value, or everything that is wrong. -/
abbrev Reading (α : Type) := Except (List FieldError) α

namespace Reading

variable {α β γ : Type}

/-- The reading that finds one thing wrong. -/
def refuse (place : Location) (complaint : FieldComplaint) : Reading α :=
  .error [⟨place, complaint⟩]

/-- Puts two readings together.  Neither hides what the other finds wrong. -/
def zipWith (f : α → β → γ) : Reading α → Reading β → Reading γ
  | .ok a, .ok b => .ok (f a b)
  | .ok _, .error errors => .error errors
  | .error errors, .ok _ => .error errors
  | .error errors, .error more => .error (errors ++ more)

/-- The failure to read data as a form with the given name. -/
def orFail (form : Text) : Reading α → Except Failure α
  | .ok a => .ok a
  | .error errors => .error (.form form errors)

end Reading

namespace Form

/-- One step further into the data, to a member. -/
def inMember (place : Location) (name : Text) : Location := place ++ [.text name]

/-- One step further into the data, to an item. -/
def inItem (place : Location) (index : Nat) : Location := place ++ [.int index]

/-! ## Scalars -/

/-- Anything at all. -/
def anything (_ : Location) (v : Value) : Reading Value := .ok v

/-- Only a text is a text. -/
def text (place : Location) : Value → Reading Text
  | .text t => .ok t
  | _ => .refuse place .notText

/-- The texts that are read as false. -/
def falseTexts : List Text := ["0", "off", "f", "false", "n", "no"].map String.text

/-- The texts that are read as true. -/
def trueTexts : List Text := ["1", "on", "t", "true", "y", "yes"].map String.text

/-- Zero and one are read as truth values.  Of the other numbers only those of 64 bits count as
attempts at one. -/
def boolOfInt (place : Location) (n : Int) : Reading Bool :=
  if n = 0 then .ok false
  else if n = 1 then .ok true
  else .refuse place .unreadableBool

/-- Truth values may be written as numbers and as words in any case. -/
def bool (place : Location) : Value → Reading Bool
  | .bool b => .ok b
  | .int n =>
    if -0x8000000000000000 ≤ n ∧ n < 0x8000000000000000 then boolOfInt place n
    else .refuse place .notBool
  | .float x =>
    match x.toInt? with
    | some n =>
      if -0x8000000000000000 < n ∧ n < 0x8000000000000000 then boolOfInt place n
      else .refuse place .notBool
    | none => .refuse place .notBool
  | .text t =>
    let t := t.map CodePoint.toLower
    if t.any CodePoint.isSurrogate then .refuse place .notUnicode
    else if t ∈ falseTexts then .ok false
    else if t ∈ trueTexts then .ok true
    else .refuse place .unreadableBool
  | _ => .refuse place .notBool

/-! ## Lists, mappings and objects -/

variable {α : Type}

/-- Reads the items of a list, the first at `index`. -/
def itemsFrom (read : Location → Value → Reading α) (place : Location) :
    Nat → List Value → Reading (List α)
  | _, [] => .ok []
  | index, item :: rest =>
    .zipWith List.cons (read (inItem place index) item) (itemsFrom read place (index + 1) rest)

/-- Reads a list. -/
def list (read : Location → Value → Reading α) (place : Location) : Value → Reading (List α)
  | .list items => itemsFrom read place 0 items
  | _ => .refuse place .notList

/-- Any value in a list. -/
def anyList (place : Location) : Value → Reading (List Value)
  | .list items => .ok items
  | _ => .refuse place .notList

/-- Reads the members of a mapping. -/
def members (read : Location → Value → Reading α) (place : Location) :
    List (Text × Value) → Reading (Assoc α)
  | [] => .ok []
  | (name, v) :: rest =>
    .zipWith (fun a entries => (name, a) :: entries) (read (inMember place name) v)
      (members read place rest)

/-- Reads a mapping with any names. -/
def mapping (read : Location → Value → Reading α) (place : Location) :
    Value → Reading (Assoc α)
  | .record entries => members read place entries
  | _ => .refuse place .notMapping

/-- The object that a form with the given name wants. -/
def object (form : Text) (place : Location) (read : Assoc Value → Reading α) : Value → Reading α
  | .record entries => read entries
  | _ => .refuse place (.notForm form)

/-- Reads a field, which must be there unless it has a default. -/
def field (read : Location → Value → Reading α) (default : Option α) (name : Text)
    (place : Location) (entries : Assoc Value) : Reading α :=
  match Assoc.find? name entries with
  | some v => read (inMember place name) v
  | none =>
    match default with
    | some a => .ok a
    | none => .refuse (inMember place name) .required

/-- Reads a field that has a second name, which counts where the first is not there. -/
def aliasedField (read : Location → Value → Reading α) (name second : Text)
    (place : Location) (entries : Assoc Value) : Reading α :=
  if Assoc.has name entries || !Assoc.has second entries then field read none name place entries
  else field read none second place entries

/-- Refuses every member that is no field. -/
def onlyFields (fields : List Text) (place : Location) : Assoc Value → Reading Unit
  | [] => .ok ()
  | (name, _) :: rest =>
    if name ∈ fields then onlyFields fields place rest
    else .zipWith (fun _ _ => ()) (.refuse (inMember place name) .unknownField : Reading Unit)
      (onlyFields fields place rest)

end Form

end RpcContract
