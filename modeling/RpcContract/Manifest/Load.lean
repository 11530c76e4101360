import RpcContract.Manifest.Basic
import RpcContract.Manifest.File
import RpcContract.Log.Record
import RpcContract.Registry.Builder

/-!
# Loading manifests

Loading a manifest registers the functions that it exports, namespace by namespace, and leaves a
record of each namespace.  It ends with the first function that cannot be registered.
-/

namespace RpcContract

namespace Source

/-- The module with a name, wanted for a namespace.  A module cannot be named relative to
another. -/
def find (sources : List Source) (ns name : Text) : Except Failure Source :=
  if name.isEmpty then .error (.error .value "Empty module name".text)
  else if name.head? = some '.' then
    .error (.error .type
      ("the 'package' argument is required to perform a relative import for ".text
        ++ Text.quoted name))
  else
    match List.find? (fun (source : Source) => source.name == name) sources with
    | some source => .ok source
    | none => .error (.registry (.unknownModule name ns))

end Source

/-- The declarations of the functions that are exported under a namespace. -/
def NamespaceSpec.declarations (spec : NamespaceSpec) : List (Text × List Declaration) :=
  spec.functions.map fun entry => (entry.1, entry.2.map fun p => .param p.toParam)

/-- What loading yields: its records and, unless it fails, a table. -/
structure Load where
  records : List Record
  result : Except Failure Table

namespace Manifest

/-- The logger that loading uses. -/
def logger : Text := "telephone.bootstrap".text

/-- The record of a namespace that was loaded. -/
def loaded (ns : Text) (count : Nat) : Record :=
  ⟨.info, logger,
    "Registered ".text ++ Binary64.digitsText count ++ " function(s) for namespace ".text
      ++ Text.quoted ns⟩

/-- Registers what is exported under one namespace. -/
def addNamespace (sources : List Source) (b : Builder) (ns : Text) (spec : NamespaceSpec) :
    Except Failure Builder :=
  match Source.find sources ns spec.source with
  | .error failure => .error failure
  | .ok source =>
    match b.fromSource ns source spec.declarations false with
    | (.error failure, _) => .error failure
    | (.ok (), b) => .ok b

/-- Loads namespaces into a builder, one after the other. -/
def loadInto (sources : List Source) : Assoc NamespaceSpec → Builder → Load
  | [], b => ⟨[], .ok b.freeze.table⟩
  | (ns, spec) :: rest, b =>
    match addNamespace sources b ns spec with
    | .error failure => ⟨[], .error failure⟩
    | .ok b =>
      let later := loadInto sources rest b
      ⟨loaded ns spec.functions.length :: later.records, later.result⟩

/-- Loads a manifest. -/
def load (sources : List Source) (m : Manifest) : Load := loadInto sources m.namespaces .empty

/-- Loads a manifest from data, if the data has the form of one. -/
def loadData (sources : List Source) (data : Value) : Load :=
  match read data with
  | .ok m => m.load sources
  | .error failure => ⟨[], .error failure⟩

/-- Loads a manifest from a file. -/
def loadFile (sources : List Source) (files : Files) (path : Text) : Load :=
  match readFile files path with
  | .ok data => loadData sources data
  | .error failure => ⟨[], .error failure⟩

/-- Loads a manifest from data or, where the source is a text, from the file with that path.  Nothing
else can be a path. -/
def loadFrom (sources : List Source) (files : Files) : Value → Load
  | .record members => loadData sources (.record members)
  | .text path => loadFile sources files path
  | other => ⟨[], .error (.error .type
      ("expected str, bytes or os.PathLike object, not ".text ++ other.typeName))⟩

end Manifest

end RpcContract
