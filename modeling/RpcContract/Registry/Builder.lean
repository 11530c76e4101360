import RpcContract.Registry.Entry

/-!
# Building a registry

A builder collects functions until it is frozen.  A registration is refused once the builder is
frozen, when there is nothing to call, when the name is taken and may not be overwritten, or when a
parameter is malformed; it is refused for the first of these reasons.  A refusal changes no entry,
but the last two leave the namespace behind.
-/

namespace RpcContract

/-! ## Declared parameters -/

/-- How a parameter may be declared. -/
inductive Declaration where
  | param (p : Param)
  | name (t : Text)
  /-- A name, a type text and, perhaps, a mark that makes the parameter optional. -/
  | tuple (items : List Value)
  /-- A value that declares nothing. -/
  | other (v : Value)
  deriving Repr

/-- The text that a value is, where a text has to be trimmed. -/
def Value.toTrim : Value → Except Failure Text
  | .text t => .ok t
  | v => .error (.noAttribute v.typeName "strip".text)

/-- The type of a parameter that declares none. -/
def Declaration.defaultType : Text := Schema.anyText

/-- The declared parameter. -/
def Declaration.toParam : Declaration → Except Failure Param
  | .param p => .ok p
  | .name t => .ok (.ofText t defaultType (.bool false))
  | .tuple [label, type] => do
    let label ← label.toTrim
    let type ← type.toTrim
    return .ofText label type (.bool false)
  | .tuple [label, type, optional] => do
    let label ← label.toTrim
    let type ← type.toTrim
    return .ofText label type (.bool optional.isTrue)
  | .tuple items => .error (.registry (.malformedDeclaration (Value.tuple items).display))
  | .other v => .error (.error .type ("object of type '".text ++ v.typeName ++ "' has no len()".text))

/-! ## The builder -/

/-- The functions collected so far and whether there may be more. -/
structure Builder where
  table : Table
  isFrozen : Bool

/-- A module: what it is called and what it exports. -/
structure Source where
  name : Text
  attributes : Assoc Export

namespace Builder

/-- A builder with nothing in it. -/
def empty : Builder := ⟨[], false⟩

/-- Makes sure that a namespace is there. -/
def addNamespace (ns : Text) (table : Table) : Table :=
  if Assoc.has ns table then table else Assoc.put ns [] table

/-- The functions of a namespace. -/
def functions (table : Table) (ns : Text) : Assoc Registered := (Assoc.find? ns table).getD []

/-- Registers a function, unless that is refused. -/
def register (b : Builder) (ns name : Text) (fn : Export) (declarations : List Declaration)
    (overwrite : Bool) : Except Failure Registered × Builder :=
  if b.isFrozen then (.error (.registry (.frozen ns name)), b)
  else
    match fn with
    | .value v => (.error (.registry (.notCallable ns name v.display)), b)
    | .function f =>
      let table := addNamespace ns b.table
      let taken := if overwrite then none else Assoc.find? name (functions table ns)
      match taken with
      | some old =>
        (.error (.registry (.alreadyRegistered ns name old.shown)), { b with table := table })
      | none =>
        match declarations.mapM Declaration.toParam with
        | .error failure => (.error failure, { b with table := table })
        | .ok params =>
          let registered : Registered := ⟨f, params⟩
          let changed := Assoc.put ns (Assoc.put name registered (functions table ns)) table
          (.ok registered, { b with table := changed })

/-- Registers a function under a name or, without one, under the name that it has of its own. -/
def exportAs (b : Builder) (ns : Text) (name : Option Text) (fn : Export)
    (declarations : List Declaration) (overwrite : Bool) : Except Failure Registered × Builder :=
  let given := name.bind fun t => if t.isEmpty then none else some t
  match given <|> fn.ownName? with
  | some t => b.register ns t fn declarations overwrite
  | none => (.error (.noAttribute fn.typeName "__name__".text), b)

/-- Registers functions of a module one after the other, up to the first that is refused. -/
def fromSource (b : Builder) (ns : Text) (source : Source) :
    List (Text × List Declaration) → Bool → Except Failure Unit × Builder
  | [], _ => (.ok (), b)
  | (name, declarations) :: rest, overwrite =>
    let refused := (.error (.registry (.missingFunction source.name name ns)), b)
    match Assoc.find? name source.attributes with
    | none => refused
    | some (.value .null) => refused
    | some fn =>
      match b.register ns name fn declarations overwrite with
      | (.error failure, b) => (.error failure, b)
      | (.ok _, b) => b.fromSource ns source rest overwrite

/-- Ends the collecting. -/
def freeze (b : Builder) : Builder := { b with isFrozen := true }

/-- What is asked of a builder. -/
inductive Operation where
  | register (ns name : Text) (fn : Export) (declarations : List Declaration) (overwrite : Bool)
  | exportAs (ns : Text) (name : Option Text) (fn : Export) (declarations : List Declaration)
      (overwrite : Bool)
  | fromSource (ns : Text) (source : Source) (declarations : List (Text × List Declaration))
      (overwrite : Bool)
  | freeze

/-- Carries out an operation; a failure says why it was refused. -/
def apply (b : Builder) : Operation → Except Failure Unit × Builder
  | .register ns name fn declarations overwrite =>
    let (result, b) := b.register ns name fn declarations overwrite
    (result.map fun _ => (), b)
  | .exportAs ns name fn declarations overwrite =>
    let (result, b) := b.exportAs ns name fn declarations overwrite
    (result.map fun _ => (), b)
  | .fromSource ns source declarations overwrite => b.fromSource ns source declarations overwrite
  | .freeze => (.ok (), b.freeze)

/-- The builder after a sequence of operations. -/
def run (operations : List Operation) : Builder :=
  operations.foldl (fun b operation => (b.apply operation).2) empty

end Builder

/-! ## Frozen tables -/

/-- The table with all the given functions, in order, or the first refusal. -/
def Table.build (functions : List (Text × List (Text × Export × List Declaration))) :
    Except Failure Table :=
  go functions .empty
where
  /-- Registers the functions of one namespace. -/
  goNamespace (ns : Text) :
      List (Text × Export × List Declaration) → Builder → Except Failure Builder
    | [], b => .ok b
    | (name, fn, declarations) :: rest, b =>
      match b.register ns name fn declarations false with
      | (.error failure, _) => .error failure
      | (.ok _, b) => goNamespace ns rest b
  /-- Registers the functions of each namespace in turn. -/
  go : List (Text × List (Text × Export × List Declaration)) → Builder → Except Failure Table
    | [], b => .ok b.table
    | (ns, functions) :: rest, b => do go rest (← goNamespace ns functions b)

/-- The failure of writing to a frozen table or, unless the namespace is null, to one of its
namespaces. -/
def Table.assign (table : Table) (ns : Value) : Failure :=
  let refused := Failure.error .type
    "'mappingproxy' object does not support item assignment".text
  match ns with
  | .null => refused
  | .text name => if Assoc.has name table then refused else .error .key name
  | other => if other.isKey then .raised .key [other] else .unhashable other

end RpcContract
