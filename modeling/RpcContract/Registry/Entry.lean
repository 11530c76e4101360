import RpcContract.Registry.Function

/-!
# Registered functions

A function with its declared parameters, and the tables that find it by namespace and name.
-/

namespace RpcContract

/-- An entry as it may be written by hand: what stands for the function need not be one. -/
structure Draft where
  fn : Export
  params : List Param

namespace Draft

/-- The number of arguments that must be given. -/
def least (d : Draft) : Nat := Param.least d.params

/-- The number of arguments that may be given. -/
def most (d : Draft) : Nat := Param.most d.params

/-- How an entry is shown: the name of its function and its parameters, the optional ones marked. -/
def shown (d : Draft) : Text :=
  let params := d.params.map fun p => p.name.bare ++ if p.optional then "?".text else []
  "FunctionEntry(".text ++ d.fn.shown ++ "(".text ++ Text.join ", ".text params ++ "))".text

end Draft

/-- A function that can be called, with its parameters. -/
structure Registered where
  fn : Function
  params : List Param

namespace Registered

/-- The entry of a registered function. -/
def toDraft (r : Registered) : Draft := ⟨.function r.fn, r.params⟩

/-- The number of arguments that must be given. -/
def least (r : Registered) : Nat := Param.least r.params

/-- The number of arguments that may be given. -/
def most (r : Registered) : Nat := Param.most r.params

/-- How a registered function is shown. -/
def shown (r : Registered) : Text := r.toDraft.shown

end Registered

/-- The registered function that an entry describes, if what stands for its function is one. -/
def Draft.toRegistered? (d : Draft) : Option Registered :=
  match d.fn with
  | .function f => some ⟨f, d.params⟩
  | .value _ => none

/-- Registered functions by namespace and name, in order of registration. -/
abbrev Table := Assoc (Assoc Registered)

end RpcContract
