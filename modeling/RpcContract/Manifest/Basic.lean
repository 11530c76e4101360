import RpcContract.Form
import RpcContract.Text.Blank

/-!
# Manifests

A manifest says which functions of which modules are exported under which namespace, and which
parameters they declare.
-/

namespace RpcContract

/-- A parameter as a manifest declares it. -/
structure ParamSpec where
  name : Text
  type : Text
  optional : Bool
  deriving Repr

/-- What is exported under a namespace: functions of one module with their parameters. -/
structure NamespaceSpec where
  /-- The name of the module. -/
  source : Text
  functions : Assoc (List ParamSpec)
  deriving Repr

structure Manifest where
  namespaces : Assoc NamespaceSpec
  deriving Repr

namespace ParamSpec

/-- A text with more than white space in it. -/
def readName (place : Location) (v : Value) : Reading Text :=
  match Form.text place v with
  | .ok name => if (Text.trim name).isEmpty then .refuse place .blankName else .ok name
  | .error errors => .error errors

/-- Reads a parameter.  One without a type takes every value. -/
def read (place : Location) (v : Value) : Reading ParamSpec :=
  Form.object "ParamSpec".text place (fun entries =>
    let name := Form.field readName none "name".text place entries
    let type := Form.field Form.text (some Schema.anyText) "type".text place entries
    let optional := Form.field Form.bool (some false) "optional".text place entries
    .zipWith (fun label optional => ⟨label.1, label.2, optional⟩) (.zipWith Prod.mk name type)
      optional) v

/-- The parameter that is declared. -/
def toParam (spec : ParamSpec) : Param := .ofText spec.name spec.type (.bool spec.optional)

end ParamSpec

/-- Reads what is exported under a namespace. -/
def NamespaceSpec.read (place : Location) (v : Value) : Reading NamespaceSpec :=
  Form.object "NamespaceSpec".text place (fun entries =>
    let source := Form.field Form.text none "module".text place entries
    let functions := Form.field (Form.mapping (Form.list ParamSpec.read)) (some [])
      "functions".text place entries
    .zipWith NamespaceSpec.mk source functions) v

/-- Reads a manifest. -/
def Manifest.read (v : Value) : Except Failure Manifest :=
  let form := "RegistryManifest".text
  Reading.orFail form <| Form.object form [] (fun entries =>
    (Form.field (Form.mapping NamespaceSpec.read) (some []) "namespaces".text [] entries).map
      Manifest.mk) v

end RpcContract
