import RpcContract.Schema.Basic
import RpcContract.Value.Agreement
import RpcContract.Value.Display

/-!
# How schemas are shown and compared

A schema is shown as the value that it is; an object that has optional fields names them, sorted,
behind its fields.  Comparison looks at fields and type texts alone: neither the order of fields
nor their marks count.
-/

namespace RpcContract.Schema

mutual

/-- The schema as it stands inside a message. -/
def display : Schema → Text
  | .text t => Text.quoted t
  | .raw v => v.display
  | .object _ fields =>
    let shown := "\x7b".text ++ displayFields fields ++ "\x7d".text
    let optional := (fields.filter (·.optional)).map (·.name)
    if optional.isEmpty then shown
    else
      "ObjectShape(".text ++ shown ++ ", optional=[".text
        ++ Text.join ", ".text ((Text.sort optional).map Text.quoted) ++ "])".text

/-- The fields with commas between them. -/
def displayFields : List (Field Schema) → Text
  | [] => []
  | [⟨name, _, schema⟩] => Text.quoted name ++ ": ".text ++ display schema
  | ⟨name, _, schema⟩ :: next :: rest =>
    Text.quoted name ++ ": ".text ++ display schema ++ ", ".text ++ displayFields (next :: rest)

end

/-- How a message names the type that was expected. -/
def expectation : Schema → Text
  | .text t => t
  | .object _ _ => "object".text
  | .raw v => v.bare

/-- The field with a name. -/
def findField? (name : Text) : List (Field Schema) → Option (Field Schema)
  | [] => none
  | field :: rest => if field.name = name then some field else findField? name rest

mutual

/-- Whether two schemas declare the same. -/
def agrees : Schema → Schema → Bool
  | .text t, .text u => t == u
  | .raw v, .raw w => v.agrees w
  | .object _ fields, .object _ others =>
    fields.length == others.length && agreeFields fields others
  | _, _ => false

/-- Whether every field has its like under the same name. -/
def agreeFields : List (Field Schema) → List (Field Schema) → Bool
  | [], _ => true
  | ⟨name, _, schema⟩ :: rest, others =>
    (match findField? name others with
      | some other => agrees schema other.schema
      | none => false) && agreeFields rest others

end

end RpcContract.Schema
