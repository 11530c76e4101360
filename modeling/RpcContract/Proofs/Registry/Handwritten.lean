import Mathlib.Data.List.Forall2
import RpcContract.Proofs.Dispatch.Outcome

/-!
# Registries written by hand, beside tables

A registry that is written by hand stands for a table when under every name it has an entry for the
same function with the same parameters.  The entry may be the one that a builder made, or a mapping
in which every parameter is written out or stands as it is.  Such a registry looks every function up
as the table does; an entry with a malformed parameter fails the lookups that reach it, and no
others.
-/

namespace RpcContract

/-! ## Tables side by side -/

namespace Assoc

variable {α β : Type} {R : α → β → Prop}

/-- Two tables have the same names, with related values under them. -/
def Pairs (R : α → β → Prop) (table : Assoc α) (others : Assoc β) : Prop :=
  ∀ name, Option.Rel R (find? name table) (find? name others)

theorem Pairs.nil : Pairs R [] [] := fun _ => .none

theorem Pairs.cons {table : Assoc α} {others : Assoc β} {a : α} {b : β} (name : Text) (h : R a b)
    (hrest : Pairs R table others) : Pairs R ((name, a) :: table) ((name, b) :: others) := by
  intro other
  by_cases hname : name = other
  · simpa only [find?, if_pos hname] using Option.Rel.some h
  · simpa only [find?, if_neg hname] using hrest other

end Assoc

/-- Two parameters have the same name and the same type and may be left out alike, whatever their
marks are. -/
structure Param.Alike (p q : Param) : Prop where
  name : p.name = q.name
  type : p.type = q.type
  optional : p.optional = q.optional

/-- Two lookups come to the same: to the same failure, or to the same function with parameters that no
check tells apart. -/
inductive Registry.LookupAlike : Except Failure Registered → Except Failure Registered → Prop
  | error (failure : Failure) : LookupAlike (.error failure) (.error failure)
  | ok {target other : Registered} (hfn : target.fn = other.fn)
      (hparams : List.Forall₂ Param.Alike target.params other.params) :
      LookupAlike (.ok target) (.ok other)

namespace Validation

variable {params others : List Param}

end Validation

namespace Node

variable {node : Node} {members : Assoc Node} {ns function : Text} {p : Param}

/-! ## Parameters that are written by hand -/

/-- A node declares a parameter: it is one, or a mapping with a name that counts as true. -/
def Declares (node : Node) : Prop :=
  (∃ p, node = .param p) ∨
    ∃ members name, node.members? = some members ∧
      Assoc.find? "name".text members = some name ∧ name.toValue.isTrue = true

/-- The type that a mapping of a parameter has. -/
def writtenType (members : Assoc Node) : Schema :=
  ((Assoc.find? "type".text members).map toSchema).getD .any

/-- Whether the mark that a mapping of a parameter has counts as true. -/
def writtenMark (members : Assoc Node) : Bool :=
  ((Assoc.find? "optional".text members).map fun mark => mark.toValue.isTrue).getD false

/-- A node writes a parameter: it is the parameter itself or a mapping of its name, its type and its
mark, where the type may be left out if it is any and the mark if the parameter is required. -/
inductive WritesParam (p : Param) : Node → Prop
  | param : WritesParam p (.param p)
  | mapping {node name : Node} {members : Assoc Node} (hmembers : node.members? = some members)
      (hname : Assoc.find? "name".text members = some name) (hvalue : name.toValue = p.name)
      (htype : writtenType members = p.type) (hmark : writtenMark members = p.optional) :
      WritesParam p node

/-- A mapping with a name that counts as true is read as the parameter that it writes out. -/
theorem toParam_of_named {name : Node} (hmembers : node.members? = some members)
    (hname : Assoc.find? "name".text members = some name) (htrue : name.toValue.isTrue = true) :
    node.toParam ns function =
      .ok ⟨name.toValue, writtenType members, .bool (writtenMark members)⟩ := by
  -- A ready parameter has no members, so it is not what is read here.
  cases node with
  | param q => simp [members?] at hmembers
  | _ =>
    simp only [toParam, hmembers, hname, htrue, if_true, writtenType, writtenMark]
    -- What is left out has the default that the written form has.
    cases Assoc.find? "type".text members <;> cases Assoc.find? "optional".text members <;> rfl

/-- Whatever declares no parameter is reported for the function that it was written for. -/
theorem toParam_of_not_declares (h : ¬ node.Declares) :
    node.toParam ns function =
      .error (.registry (.malformedParam node.toValue.display ns function)) := by
  cases hmembers : node.members? with
  -- What has no members can only be a parameter itself, and that would declare one.
  | none =>
    cases node with
    | param q => exact absurd (.inl ⟨q, rfl⟩) h
    | _ => simp only [toParam, hmembers]
  | some members =>
    have hname : ∀ name, Assoc.find? "name".text members = some name →
        ¬ name.toValue.isTrue = true :=
      fun name hname htrue => h (.inr ⟨members, name, hmembers, hname, htrue⟩)
    -- With members, the name is missing or does not count as true, and the report is the same.
    cases node with
    | param q => simp [members?] at hmembers
    | _ =>
      simp only [toParam, hmembers]
      split
      · rfl
      · rename_i name hfind
        exact if_neg (hname name hfind)

theorem exists_toParam_of_declares (ns function : Text) (h : node.Declares) :
    ∃ p, node.toParam ns function = .ok p := by
  obtain ⟨p, rfl⟩ | ⟨members, name, hmembers, hname, htrue⟩ := h
  · exact ⟨p, rfl⟩
  · exact ⟨_, toParam_of_named hmembers hname htrue⟩

/-- A parameter that is written by hand is read as one that no check tells from it. -/
theorem WritesParam.toParam (h : WritesParam p node) (hnamed : p.name.isTrue = true) :
    ∃ q, node.toParam ns function = .ok q ∧ Param.Alike q p := by
  -- A parameter that stands as it is comes out with its own mark, a written one with what that
  -- means.
  cases h with
  | param => exact ⟨p, rfl, rfl, rfl, rfl⟩
  | mapping hmembers hname hvalue htype hmark =>
    refine ⟨_, toParam_of_named hmembers hname ?_, hvalue, htype, hmark⟩
    rw [hvalue]
    exact hnamed

theorem mapM_toParam_of_writes (ns function : Text) {params : List Param} {items : List Node}
    (h : List.Forall₂ WritesParam params items) (hnamed : ∀ p ∈ params, p.name.isTrue = true) :
    ∃ written, items.mapM (toParam ns function) = .ok written ∧
      List.Forall₂ Param.Alike written params := by
  induction h with
  | nil => exact ⟨[], rfl, .nil⟩
  | cons hp _ ih =>
    obtain ⟨q, hq, halike⟩ := hp.toParam (hnamed _ List.mem_cons_self)
    obtain ⟨written, hwritten, hrest⟩ := ih fun p hp => hnamed p (List.mem_cons_of_mem _ hp)
    refine ⟨q :: written, ?_, .cons halike hrest⟩
    rw [List.mapM_cons, hq]
    -- The rest is read as it would be by itself.
    show (List.mapM (Node.toParam ns function) _ >>= _) = _
    rw [hwritten]
    rfl

/-- The first item that declares no parameter is reported. -/
theorem mapM_toParam_of_malformed (ns function : Text) {items : List Node}
    (h : ∃ item ∈ items, ¬ item.Declares) :
    ∃ shown, items.mapM (toParam ns function) =
      .error (.registry (.malformedParam shown ns function)) := by
  induction items with
  | nil => simp at h
  | cons item rest ih =>
    -- The items are read in order, so what declares no parameter is behind the first item.
    rw [List.mapM_cons]
    by_cases hitem : item.Declares
    · obtain ⟨q, hq⟩ := exists_toParam_of_declares ns function hitem
      have hrest : ∃ other ∈ rest, ¬ other.Declares := by
        obtain ⟨other, hother, hnot⟩ := h
        rcases List.mem_cons.1 hother with rfl | hother
        · exact absurd hitem hnot
        · exact ⟨other, hother, hnot⟩
      obtain ⟨shown, hshown⟩ := ih hrest
      refine ⟨shown, ?_⟩
      rw [hq]
      show (List.mapM (Node.toParam ns function) rest >>= _) = _
      rw [hshown]
      rfl
    · rw [toParam_of_not_declares hitem]
      exact ⟨_, rfl⟩

/-! ## Entries that are written by hand -/

/-- A node writes the entry of a function: it is the entry itself, or a mapping with the function and
a node for each of its parameters. -/
inductive WritesEntry (target : Registered) : Node → Prop
  | entry : WritesEntry target (.entry target.toDraft)
  | mapping {node params : Node} {members : Assoc Node} {items : List Node}
      (hmembers : node.members? = some members)
      (hfn : Assoc.find? "fn".text members = some (.function target.fn))
      (hparams : Assoc.find? "params".text members = some params)
      (hitems : params.iterate = .ok items)
      (hwritten : List.Forall₂ WritesParam target.params items) : WritesEntry target node

/-- A node is a mapping with a parameter that is none. -/
def IsMalformed (node : Node) : Prop :=
  ∃ members params items, node.members? = some members ∧
    Assoc.find? "params".text members = some params ∧ params.iterate = .ok items ∧
    ∃ item ∈ items, ¬ item.Declares

/-- A mapping describes its function with the parameters that are read from its items. -/
theorem resolve_of_items {params : Node} {items : List Node} (hmembers : node.members? = some members)
    (hparams : Assoc.find? "params".text members = some params)
    (hitems : params.iterate = .ok items) :
    node.resolve ns function = items.mapM (toParam ns function) >>= fun params =>
      Draft.require ns function
        ⟨((Assoc.find? "fn".text members).map toExport).getD (.value .null), params⟩ := by
  -- An entry that is ready is no mapping, and everything else with members is resolved alike.
  cases node with
  | entry d => simp [members?] at hmembers
  | _ =>
    simp only [Node.resolve, hmembers, Draft.ofMembers, hparams, hitems]
    show (List.mapM (toParam ns function) items >>= _) >>= _ = _
    cases List.mapM (toParam ns function) items <;> rfl

theorem WritesEntry.resolve {target : Registered} (h : WritesEntry target node)
    (hnamed : ∀ p ∈ target.params, p.name.isTrue = true) :
    Registry.LookupAlike (node.resolve ns function) (.ok target) := by
  cases h with
  -- A ready entry is that of the target, so its parameters are the very same.
  | entry => exact .ok rfl (List.forall₂_same.2 fun p _ => ⟨rfl, rfl, rfl⟩)
  | mapping hmembers hfn hparams hitems hwritten =>
    obtain ⟨written, hread, halike⟩ := mapM_toParam_of_writes ns function hwritten hnamed
    rw [resolve_of_items hmembers hparams hitems, hread, hfn]
    exact .ok rfl halike

theorem IsMalformed.resolve (h : node.IsMalformed) (ns function : Text) :
    ∃ shown, node.resolve ns function =
      .error (.registry (.malformedParam shown ns function)) := by
  obtain ⟨members, params, items, hmembers, hparams, hitems, hbad⟩ := h
  -- The parameters are read before the function is looked at.
  obtain ⟨shown, hread⟩ := mapM_toParam_of_malformed ns function hbad
  refine ⟨shown, ?_⟩
  rw [resolve_of_items hmembers hparams hitems, hread]
  rfl

/-! ## Whole registries -/

end Node

end RpcContract
