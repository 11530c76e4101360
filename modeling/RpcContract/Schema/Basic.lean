import RpcContract.Value.Basic

/-!
# Schemas

What is declared of a value: a type text, an object with declared fields, or, in registries that
are written by hand, a value that is neither.
-/

namespace RpcContract

/-- Where the fields of an object schema come from. -/
inductive ObjectForm where
  /-- An object literal of a type text, whose fields may be optional. -/
  | literal
  /-- A plain mapping from names to schemas, all of whose fields are required. -/
  | mapping
  deriving Repr, DecidableEq

/-- Whether marks count: a plain mapping has none. -/
def ObjectForm.hasMarks : ObjectForm → Bool
  | .literal => true
  | .mapping => false

/-- A declared field. -/
structure Field (σ : Type) where
  name : Text
  optional : Bool
  schema : σ
  deriving Repr, DecidableEq

inductive Schema where
  /-- Type text that is kept as it was written. -/
  | text (t : Text)
  /-- An object with its declared fields in order. -/
  | object (form : ObjectForm) (fields : List (Field Schema))
  /-- A value that is neither a text nor a mapping. -/
  | raw (v : Value)
  deriving Repr, Inhabited

namespace Schema

/-- The type text that every value satisfies. -/
def anyText : Text := "any".text

/-- The schema of a parameter whose type is not declared. -/
def any : Schema := .text anyText

/-- Declares a field: a name that is declared already keeps its place and takes the new schema and
the new mark. -/
def declare (field : Field Schema) : List (Field Schema) → List (Field Schema)
  | [] => [field]
  | old :: rest => if old.name = field.name then field :: rest else old :: declare field rest

/-- The fields that result from declaring each in turn. -/
def declareAll (fields : List (Field Schema)) : List (Field Schema) :=
  fields.foldl (fun declared field => declare field declared) []

mutual

/-- The schema that a value is when it stands where a schema is wanted. -/
def ofValue : Value → Schema
  | .text t => .text t
  | .record members => .object .mapping (ofMembers members)
  | v => .raw v

/-- The fields that the members of an object are. -/
def ofMembers : List (Text × Value) → List (Field Schema)
  | [] => []
  | (name, v) :: rest => ⟨name, false, ofValue v⟩ :: ofMembers rest

end

mutual

/-- The schema as a value, without the marks of optional fields. -/
def toValue : Schema → Value
  | .text t => .text t
  | .object _ fields => .record (toMembers fields)
  | .raw v => v

/-- The fields as members of an object. -/
def toMembers : List (Field Schema) → List (Text × Value)
  | [] => []
  | ⟨name, _, schema⟩ :: rest => (name, toValue schema) :: toMembers rest

end

end Schema

end RpcContract
