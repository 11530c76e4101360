import RpcContract.Registry.Builder

/-!
# Registries written by hand

A registry may be given as plain data that holds functions.  Nothing in it is checked before a call
asks for it, so each lookup has to cope with whatever it finds.
-/

namespace RpcContract

/-- A node of a registry that is written by hand.  Lists and mappings stand on their own or inside a
value, and count alike. -/
inductive Node where
  | data (v : Value)
  | list (items : List Node)
  | mapping (members : List (Text × Node))
  | schema (s : Schema)
  | function (f : Function)
  | param (p : Param)
  | entry (d : Draft)

namespace Node

mutual

/-- The node as a value; what is no data is known by its type and how it is shown. -/
def toValue : Node → Value
  | .data v => v
  | .list items => .list (toValues items)
  | .mapping members => .record (toMembers members)
  | .schema s => .host ⟨"ObjectShape".text, s.display⟩
  | .function f => .host ⟨f.typeName, (Export.function f).display⟩
  | .param p =>
    .host ⟨"ParamInfo".text,
      "ParamInfo(name=".text ++ p.name.display ++ ", type=".text ++ p.type.display
        ++ ", optional=".text ++ p.mark.display ++ ")".text⟩
  | .entry d => .host ⟨"FunctionEntry".text, d.shown⟩

def toValues : List Node → List Value
  | [] => []
  | item :: rest => toValue item :: toValues rest

def toMembers : List (Text × Node) → List (Text × Value)
  | [] => []
  | (name, node) :: rest => (name, toValue node) :: toMembers rest

end

mutual

/-- The node where a schema is wanted. -/
def toSchema : Node → Schema
  | .data v => .ofValue v
  | .mapping members => .object .mapping (toFields members)
  | .schema s => s
  | node => .raw node.toValue

def toFields : List (Text × Node) → List (Field Schema)
  | [] => []
  | (name, node) :: rest => ⟨name, false, toSchema node⟩ :: toFields rest

end

/-- The node where a function is wanted. -/
def toExport : Node → Export
  | .function f => .function f
  | node => .value node.toValue

/-- The members of a mapping. -/
def members? : Node → Option (Assoc Node)
  | .mapping members => some members
  | .data (.record members) => some (members.map fun member => (member.1, .data member.2))
  | .schema (.object _ fields) => some (fields.map fun field => (field.name, .schema field.schema))
  | _ => none

/-- What a loop over the node runs through: the items of a list, the names of a mapping, the code
points of a text. -/
def iterate (node : Node) : Except Failure (List Node) :=
  match node, node.members? with
  | _, some members => .ok ((Assoc.names members).map fun name => .data (.text name))
  | .list items, none => .ok items
  | .data (.list items), none | .data (.tuple items), none => .ok (items.map .data)
  | .data (.text t), none | .schema (.text t), none => .ok (t.map fun c => .data (.text [c]))
  | _, none => .error (.error .type
      ("'".text ++ node.toValue.typeName ++ "' object is not iterable".text))

/-- The parameter that a node declares.  A mapping must have a name that counts as true; its type
is taken as it stands. -/
def toParam (ns function : Text) (node : Node) : Except Failure Param :=
  let malformed := .error (.registry (.malformedParam node.toValue.display ns function))
  match node, node.members? with
  | .param p, _ => .ok p
  | _, none => malformed
  | _, some members =>
    match Assoc.find? "name".text members with
    | none => malformed
    | some name =>
      if name.toValue.isTrue then
        .ok {
          name := name.toValue
          type := match Assoc.find? "type".text members with
            | some type => type.toSchema
            | none => .any
          mark := .bool (match Assoc.find? "optional".text members with
            | some mark => mark.toValue.isTrue
            | none => false) }
      else malformed

/-- The failure to look something up in a node that is no mapping. -/
def noLookup (node : Node) : Failure := .noAttribute node.toValue.typeName "get".text

end Node

/-- Reads an entry from the members of a mapping. -/
def Draft.ofMembers (members : Assoc Node) (ns function : Text) : Except Failure Draft := do
  let nodes ← match Assoc.find? "params".text members with
    | some node => node.iterate
    | none => .ok []
  let params ← nodes.mapM (Node.toParam ns function)
  return ⟨((Assoc.find? "fn".text members).map Node.toExport).getD (.value .null), params⟩

/-- Reads an entry from a node. -/
def Draft.ofNode (node : Node) (ns function : Text) : Except Failure Draft :=
  match node.members? with
  | some members => Draft.ofMembers members ns function
  | none => .error node.noLookup

/-- The function that an entry describes; without one, the lookup fails. -/
def Draft.require (ns function : Text) (d : Draft) : Except Failure Registered :=
  match d.toRegistered? with
  | some registered => .ok registered
  | none => .error (.functionNotFound ns function)

/-- The function that a node describes, where an entry is wanted. -/
def Node.resolve (ns function : Text) (node : Node) : Except Failure Registered :=
  match node, node.members? with
  | .entry d, _ => d.require ns function
  | _, some members => do (← Draft.ofMembers members ns function).require ns function
  | _, none => .error (.functionNotFound ns function)

/-- The functions of a namespace. -/
inductive Namespace where
  | built (functions : Assoc Registered)
  /-- A namespace that was written by hand. -/
  | plain (functions : Assoc Node)

namespace Namespace

/-- The namespace that a node describes. -/
def ofNode (ns : Text) (node : Node) : Except Failure Namespace :=
  match node, node.members? with
  | .data .null, _ => .error (.namespaceNotFound ns)
  | _, none => .error node.noLookup
  | _, some functions => .ok (.plain functions)

/-- The function with a name. -/
def find (ns function : Text) : Namespace → Except Failure Registered
  | .built functions =>
    match Assoc.find? function functions with
    | some registered => .ok registered
    | none => .error (.functionNotFound ns function)
  | .plain functions =>
    match Assoc.find? function functions with
    | some entry => entry.resolve ns function
    | none => .error (.functionNotFound ns function)

end Namespace

/-- What functions are looked up in. -/
inductive Registry where
  /-- A table that a builder made. -/
  | built (table : Table)
  /-- A registry that was written by hand. -/
  | plain (root : Node)

namespace Registry

/-- The namespace with a name. -/
def namespaceAt (registry : Registry) (ns : Text) : Except Failure Namespace :=
  match registry with
  | .built table =>
    match Assoc.find? ns table with
    | some functions => .ok (.built functions)
    | none => .error (.namespaceNotFound ns)
  | .plain root =>
    match root.members? with
    | none => .error root.noLookup
    | some nodes =>
      match Assoc.find? ns nodes with
      | some node => Namespace.ofNode ns node
      | none => .error (.namespaceNotFound ns)

/-- The function with a name in a namespace. -/
def resolve (registry : Registry) (ns function : Text) : Except Failure Registered :=
  match registry.namespaceAt ns with
  | .ok functions => functions.find ns function
  | .error failure => .error failure

/-- Why a value other than a text names nothing, when names are wanted. -/
def noName (v : Value) (failure : Failure) : Failure := if v.isKey then failure else .unhashable v

/-- The function that two values name; only texts name anything. -/
def resolveNamed (registry : Registry) : Value → Value → Except Failure Registered
  | .text ns, .text function => registry.resolve ns function
  | .text ns, function =>
    match registry.namespaceAt ns with
    | .ok _ => .error (noName function (.functionNotFound ns function.bare))
    | .error failure => .error failure
  | ns, _ =>
    match registry with
    | .plain root =>
      if root.members?.isSome then .error (noName ns (.namespaceNotFound ns.bare))
      else .error root.noLookup
    | .built _ => .error (noName ns (.namespaceNotFound ns.bare))

end Registry

end RpcContract
