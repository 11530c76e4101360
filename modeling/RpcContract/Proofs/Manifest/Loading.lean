import RpcContract.Manifest.Load
import RpcContract.Proofs.Manifest.Reading
import RpcContract.Proofs.Registry.Refinement
import RpcContract.Sample.Probes

/-!
# Loading a manifest builds the registry that it describes

A manifest can be loaded exactly when each of its modules can be imported and exports every function
that is declared of it.  The table is then the one that is built from the attributes of the modules
with their declared parameters: in the order of the manifest, and without the namespaces that declare
nothing.  Otherwise loading ends with the first failure in that order.
-/

namespace RpcContract

/-! ## What a manifest describes -/

/-- The declaration of a parameter as a tuple. -/
def ParamSpec.declaration (spec : ParamSpec) : Declaration :=
  .tuple [.text spec.name, .text spec.type, .bool spec.optional]

namespace Source

/-- A module can be imported under a name that is neither empty nor relative to another, and the
first of that name is the one that counts. -/
structure Imports (sources : List Source) (name : Text) (source : Source) : Prop where
  nonempty : name ≠ []
  absolute : name.head? ≠ some (.char '.')
  found : sources.find? (fun source => source.name == name) = some source

/-- The attribute of a module; null where there is no such module or no such attribute. -/
def exported (sources : List Source) (name label : Text) : Export :=
  ((sources.find? fun source => source.name == name).bind (·.export? label)).getD (.value .null)

/-- What is registered under a name is what a manifest declares of it: the function that the module
exports, with the declared parameters. -/
structure Exports (source : Source) (declared : Text × List ParamSpec)
    (entry : Text × Registered) : Prop where
  name : entry.1 = declared.1
  fn : source.export? declared.1 = some (.function entry.2.fn)
  params : entry.2.params = declared.2.map ParamSpec.toParam

end Source

/-- The table without the namespaces that hold nothing. -/
def Table.inhabited (table : Table) : Table := table.filter fun entry => !entry.2.isEmpty

namespace NamespaceSpec

/-- The module can be imported, and every declared function is one of its functions. -/
def IsLoadable (sources : List Source) (spec : NamespaceSpec) : Prop :=
  ∃ source, Source.Imports sources spec.source source ∧
    ∀ declared ∈ spec.functions, ∃ f, source.export? declared.1 = some (.function f)

/-- Why a namespace cannot be loaded.  First its module is looked for, then its functions are looked at
one after the other. -/
inductive Fails (sources : List Source) (ns : Text) (spec : NamespaceSpec) : Failure → Prop
  | unnamed (h : spec.source = []) : Fails sources ns spec (.error .value "Empty module name".text)
  | relative (h : spec.source.head? = some (.char '.')) :
      Fails sources ns spec (.error .type
        ("the 'package' argument is required to perform a relative import for ".text
          ++ Text.quoted spec.source))
  | unknown (hnonempty : spec.source ≠ []) (habsolute : spec.source.head? ≠ some (.char '.'))
      (h : sources.find? (fun source => source.name == spec.source) = none) :
      Fails sources ns spec (.registry (.unknownModule spec.source ns))
  | missing {source : Source} {front rest : Assoc (List ParamSpec)} {name : Text}
      {params : List ParamSpec} (himports : Source.Imports sources spec.source source)
      (hfunctions : spec.functions = front ++ (name, params) :: rest)
      (hfront : ∀ declared ∈ front, ∃ f, source.export? declared.1 = some (.function f))
      (h : source.export? name = none) :
      Fails sources ns spec (.registry (.missingFunction source.name name ns))
  | notCallable {source : Source} {front rest : Assoc (List ParamSpec)} {name : Text}
      {params : List ParamSpec} {v : Value} (himports : Source.Imports sources spec.source source)
      (hfunctions : spec.functions = front ++ (name, params) :: rest)
      (hfront : ∀ declared ∈ front, ∃ f, source.export? declared.1 = some (.function f))
      (h : source.export? name = some (.value v)) :
      Fails sources ns spec (.registry (.notCallable ns name v.display))

end NamespaceSpec

namespace Manifest

/-- What a manifest describes: under each namespace the attributes of its module, each with the
declarations of its parameters. -/
def described (sources : List Source) (m : Manifest) :
    List (Text × List (Text × Export × List Declaration)) :=
  m.namespaces.map fun (ns, spec) => (ns, spec.functions.map fun (name, params) =>
    (name, Source.exported sources spec.source name, params.map ParamSpec.declaration))

/-- What is registered under a namespace is what a manifest declares of it, function by function. -/
structure Loads (sources : List Source) (entry : Text × NamespaceSpec)
    (functions : Text × Assoc Registered) : Prop where
  name : functions.1 = entry.1
  exports : ∃ source, Source.Imports sources entry.2.source source ∧
    List.Forall₂ source.Exports entry.2.functions functions.2

/-- A table holds what a manifest declares, in the same order, and no empty namespace. -/
def IsLoadedAs (sources : List Source) (m : Manifest) (table : Table) : Prop :=
  ∃ full : Table, List.Forall₂ (Loads sources) m.namespaces full ∧ table = full.inhabited

/-- The first namespace that cannot be loaded fails.  Its failure is that of a registry unless its
module has no name or one that is relative to another. -/
def FailsFirst (sources : List Source) (m : Manifest) (failure : Failure) : Prop :=
  ∃ (front : Assoc NamespaceSpec) (ns : Text) (spec : NamespaceSpec) (rest : Assoc NamespaceSpec),
    m.namespaces = front ++ (ns, spec) :: rest ∧
    (∀ entry ∈ front, entry.2.IsLoadable sources) ∧ spec.Fails sources ns failure ∧
    ((∃ fault, failure = .registry fault) ↔
      spec.source ≠ [] ∧ spec.source.head? ≠ some (.char '.'))

end Manifest

/-! ## Lists side by side -/

section SideBySide

variable {α β : Type} {R : α → β → Prop}

theorem exists_forall₂_iff {l : List α} :
    (∃ others, List.Forall₂ R l others) ↔ ∀ a ∈ l, ∃ b, R a b := by
  induction l with
  | nil => exact ⟨fun _ _ ha => absurd ha List.not_mem_nil, fun _ => ⟨[], .nil⟩⟩
  | cons a rest ih =>
    rw [List.forall_mem_cons, ← ih]
    constructor
    · rintro ⟨others, hothers⟩
      obtain ⟨b, rest', hb, hrest, rfl⟩ := List.forall₂_cons_left_iff.1 hothers
      exact ⟨⟨b, hb⟩, rest', hrest⟩
    · rintro ⟨⟨b, hb⟩, others, hothers⟩
      exact ⟨b :: others, .cons hb hothers⟩

/-- Either everything in a list passes, or there is a first that does not. -/
theorem forall_or_exists_first {P : α → Prop} (l : List α) :
    (∀ a ∈ l, P a) ∨ ∃ front a rest, l = front ++ a :: rest ∧ (∀ b ∈ front, P b) ∧ ¬ P a := by
  induction l with
  | nil => exact .inl fun _ ha => absurd ha List.not_mem_nil
  | cons a rest ih =>
    -- The first one in the whole list is `a` or, where that passes, the first one behind it.
    by_cases ha : P a
    · rcases ih with hrest | ⟨front, b, behind, rfl, hfront, hb⟩
      · exact .inl (List.forall_mem_cons.2 ⟨ha, hrest⟩)
      · exact .inr ⟨a :: front, b, behind, rfl, List.forall_mem_cons.2 ⟨ha, hfront⟩, hb⟩
    · exact .inr ⟨[], a, rest, rfl, fun _ hb => absurd hb List.not_mem_nil, ha⟩

end SideBySide

namespace Assoc

variable {α : Type} {name : Text} {table others : Assoc α}

theorem find?_eq_none_of_not_mem (h : name ∉ names table) : find? name table = none := by
  simpa [has] using has_eq_true_iff.not.2 h

theorem find?_append_of_not_mem (h : name ∉ names table) (others : Assoc α) :
    find? name (table ++ others) = find? name others := by
  induction table with
  | nil => rfl
  | cons entry rest ih =>
    obtain ⟨hkey, hrest⟩ : name ≠ entry.1 ∧ name ∉ names rest := by simpa [names] using h
    rw [List.cons_append, find?, if_neg (Ne.symm hkey), ih hrest]

theorem put_append_of_not_mem (h : name ∉ names table) (a : α) (others : Assoc α) :
    put name a (table ++ others) = table ++ put name a others := by
  induction table with
  | nil => rfl
  | cons entry rest ih =>
    obtain ⟨hkey, hrest⟩ : name ≠ entry.1 ∧ name ∉ names rest := by simpa [names] using h
    rw [List.cons_append, put, if_neg (Ne.symm hkey), ih hrest, List.cons_append]

end Assoc

/-! ## Registering one function after the other -/

theorem ParamSpec.mapM_declaration (params : List ParamSpec) :
    (params.map declaration).mapM Declaration.toParam = .ok (params.map toParam) := by
  induction params with
  | nil => rfl
  | cons spec rest ih =>
    have hfirst : spec.declaration.toParam = .ok spec.toParam := rfl
    rw [List.map_cons, List.mapM_cons, hfirst, ih]
    rfl

theorem ParamSpec.mapM_param (params : List ParamSpec) :
    (params.map fun p => Declaration.param p.toParam).mapM Declaration.toParam
      = .ok (params.map toParam) := by
  induction params with
  | nil => rfl
  | cons spec rest ih =>
    rw [List.map_cons, List.mapM_cons, ih]
    rfl

theorem Source.Exports.eq {source : Source} {declared : Text × List ParamSpec}
    {entry : Text × Registered} (h : source.Exports declared entry) :
    ∃ f, source.export? declared.1 = some (.function f) ∧
      entry = (declared.1, ⟨f, declared.2.map ParamSpec.toParam⟩) := by
  obtain ⟨name, f, params⟩ := entry
  obtain rfl : name = declared.1 := h.name
  obtain rfl : params = declared.2.map ParamSpec.toParam := h.params
  exact ⟨f, h.fn, rfl⟩

namespace Builder

variable {base : Table} {ns name : Text} {entries : Assoc Registered} {source : Source}

/-- A builder that holds a table and, behind it, what has been registered under one namespace. -/
def holding (base : Table) (ns : Text) (entries : Assoc Registered) : Builder :=
  ⟨base ++ Table.inhabited [(ns, entries)], false⟩

theorem functions_holding (hns : ns ∉ Assoc.names base) :
    functions (holding base ns entries).table ns = entries := by
  rw [functions, holding, Assoc.find?_append_of_not_mem hns]
  -- A namespace that nothing was registered under is not in the table, but is found to hold
  -- nothing.
  cases entries <;> simp [Table.inhabited, Assoc.find?]

theorem addNamespace_holding (hns : ns ∉ Assoc.names base) :
    addNamespace ns (holding base ns entries).table = base ++ [(ns, entries)] := by
  unfold addNamespace Assoc.has holding
  rw [Assoc.find?_append_of_not_mem hns]
  -- The namespace stands in the table only if something was registered under it.
  cases entries with
  | nil => simp [Table.inhabited, Assoc.find?, Assoc.put_of_not_mem hns]
  | cons => simp [Table.inhabited, Assoc.find?]

/-- A function with a new name is registered behind the others of its namespace. -/
theorem register_holding (hns : ns ∉ Assoc.names base) (hname : name ∉ Assoc.names entries)
    (f : Function) {declarations : List Declaration} {params : List Param}
    (hdeclared : declarations.mapM Declaration.toParam = .ok params) :
    (holding base ns entries).register ns name (.function f) declarations false =
      (.ok ⟨f, params⟩, holding base ns (entries ++ [(name, ⟨f, params⟩)])) := by
  have hfree : Assoc.find? name (functions (holding base ns entries).table ns) = none := by
    rw [functions_holding hns]
    exact Assoc.find?_eq_none_of_not_mem hname
  have hentered : enter ns name ⟨f, params⟩ (holding base ns entries).table =
      (holding base ns (entries ++ [(name, ⟨f, params⟩)])).table := by
    rw [enter, functions_addNamespace, functions_holding hns, addNamespace_holding hns,
      Assoc.put_append_of_not_mem hns, Assoc.put_of_not_mem hname]
    simp [holding, Table.inhabited, Assoc.put]
  -- Only the first case is left: the builder is open, it is a function, and its parameters are
  -- read.
  rcases register_cases (holding base ns entries) ns name declarations false (.function f) with
    ⟨g, others, hfn, -, -, hothers, hregister⟩ | ⟨g, failure, -, -, hnever, -⟩ | ⟨failure, hearly, -⟩
  · cases hfn
    have hsame := (Declaration.mapM_toParam_eq_ok_iff.2 hothers).symm.trans hdeclared
    cases hsame
    rw [hregister, hentered]
    rfl
  · exact absurd (Declaration.mapM_toParam_eq_ok_iff.1 hdeclared) (hnever _ (.inl hfree))
  · rcases hearly with hfrozen | ⟨v, hvalue⟩
    · cases hfrozen
    · cases hvalue

theorem register_value (b : Builder) (hopen : b.isFrozen = false) (v : Value)
    (declarations : List Declaration) :
    b.register ns name (.value v) declarations false =
      (.error (.registry (.notCallable ns name v.display)), b) := by
  simp [register, hopen]

section Exports

variable {declared : Assoc (List ParamSpec)} {registered : Assoc Registered}

/-- What has to be new of names that are registered behind others. -/
theorem fresh_of_nodup {name : Text} {names rest : List Text} (h : (names ++ name :: rest).Nodup) :
    name ∉ names ∧ (names ++ [name] ++ rest).Nodup := by
  refine ⟨fun hmem => ?_, by simpa using h⟩
  exact (List.nodup_append.1 h).2.2 name hmem name List.mem_cons_self rfl

/-- Functions that a module exports are registered one behind the other. -/
theorem fromSource_holding (entries : Assoc Registered)
    (h : List.Forall₂ source.Exports declared registered)
    (hns : ns ∉ Assoc.names base)
    (hnodup : (Assoc.names entries ++ Assoc.names declared).Nodup)
    (rest : List (Text × List Declaration)) :
    (holding base ns entries).fromSource ns source
        ((declared.map fun entry => (entry.1, entry.2.map fun p => .param p.toParam)) ++ rest) false =
      (holding base ns (entries ++ registered)).fromSource ns source rest false := by
  -- On what is left to be registered, with what is registered already generalised.
  induction h generalizing entries with
  | nil => rw [List.append_nil, List.map_nil, List.nil_append]
  | @cons entry target declared registered hfirst _ ih =>
    obtain ⟨name, params⟩ := entry
    obtain ⟨f, hfn, rfl⟩ := hfirst.eq
    obtain ⟨hname, hrest⟩ := fresh_of_nodup hnodup
    have hregister := register_holding hns hname f (ParamSpec.mapM_param params)
    have htail := ih (entries ++ [(name, ⟨f, params.map ParamSpec.toParam⟩)])
      (by simpa [Assoc.names] using hrest)
    rw [List.map_cons, List.cons_append, fromSource_of_granted hfn hregister, htail,
      List.append_assoc, List.singleton_append]

/-- So are they when they are given with their declarations. -/
theorem goNamespace_holding (entries : Assoc Registered)
    (h : List.Forall₂ source.Exports declared registered)
    (hns : ns ∉ Assoc.names base)
    (hnodup : (Assoc.names entries ++ Assoc.names declared).Nodup) :
    Table.build.goNamespace ns (declared.map fun entry =>
        (entry.1, (source.export? entry.1).getD (.value .null),
          entry.2.map ParamSpec.declaration)) (holding base ns entries) =
      .ok (holding base ns (entries ++ registered)) := by
  -- On the functions as before; the declarations are given in the other form.
  induction h generalizing entries with
  | nil => rw [List.append_nil, List.map_nil, Table.build.goNamespace]
  | @cons entry target declared registered hfirst _ ih =>
    obtain ⟨name, params⟩ := entry
    obtain ⟨f, hfn, rfl⟩ := hfirst.eq
    obtain ⟨hname, hrest⟩ := fresh_of_nodup hnodup
    have hregister := register_holding hns hname f (ParamSpec.mapM_declaration params)
    have htail := ih (entries ++ [(name, ⟨f, params.map ParamSpec.toParam⟩)])
      (by simpa [Assoc.names] using hrest)
    simp only [List.map_cons, Table.build.goNamespace, hfn, Option.getD_some, hregister, htail,
      List.append_assoc, List.singleton_append]

end Exports

end Builder

/-! ## One namespace -/

theorem Source.find_eq_ok_iff {sources : List Source} {ns name : Text} {source : Source} :
    Source.find sources ns name = .ok source ↔ Imports sources name source := by
  unfold Source.find
  constructor
  · -- The three ways in which a look-up of a module goes, in the order in which they are tried.
    intro h
    split at h
    · cases h
    · rename_i hnonempty
      split at h
      · cases h
      · rename_i habsolute
        split at h
        · rename_i found hfound
          cases h
          exact ⟨by simpa using hnonempty, habsolute, hfound⟩
        · cases h
  · rintro ⟨hnonempty, habsolute, hfound⟩
    have hempty : name.isEmpty = false := by simpa using hnonempty
    simp [hempty, habsolute, hfound]

theorem Source.exists_exports_iff {source : Source} {declared : Text × List ParamSpec} :
    (∃ entry, source.Exports declared entry) ↔
      ∃ f, source.export? declared.1 = some (.function f) :=
  ⟨fun ⟨entry, h⟩ => ⟨entry.2.fn, h.fn⟩, fun ⟨f, h⟩ => ⟨(declared.1, ⟨f, _⟩), ⟨rfl, h, rfl⟩⟩⟩

/-- The functions that a module exports can be registered as they are declared. -/
theorem Source.exists_registered {source : Source} {declared : Assoc (List ParamSpec)}
    (h : ∀ entry ∈ declared, ∃ f, source.export? entry.1 = some (.function f)) :
    ∃ registered, List.Forall₂ source.Exports declared registered :=
  exists_forall₂_iff.2 fun entry hentry => exists_exports_iff.2 (h entry hentry)

namespace Manifest

variable {sources : List Source} {ns : Text} {spec : NamespaceSpec} {base : Table}

theorem exists_loads_iff {entry : Text × NamespaceSpec} :
    (∃ functions, Loads sources entry functions) ↔ entry.2.IsLoadable sources := by
  constructor
  · rintro ⟨functions, -, source, himports, hexports⟩
    refine ⟨source, himports, fun declared hdeclared => ?_⟩
    exact Source.exists_exports_iff.1 (exists_forall₂_iff.1 ⟨_, hexports⟩ declared hdeclared)
  · rintro ⟨source, himports, hfunctions⟩
    obtain ⟨registered, hregistered⟩ := Source.exists_registered hfunctions
    exact ⟨(entry.1, registered), rfl, source, himports, hregistered⟩

theorem holding_nil (base : Table) (ns : Text) : Builder.holding base ns [] = ⟨base, false⟩ := by
  simp [Builder.holding, Table.inhabited]

/-- A namespace that is loaded stands behind the others. -/
theorem addNamespace_of_loads {functions : Text × Assoc Registered}
    (h : Loads sources (ns, spec) functions) (hns : ns ∉ Assoc.names base)
    (hnodup : (Assoc.names spec.functions).Nodup) :
    addNamespace sources ⟨base, false⟩ ns spec =
      .ok ⟨base ++ Table.inhabited [functions], false⟩ := by
  obtain ⟨label, registered⟩ := functions
  obtain ⟨hlabel, source, himports, hexports⟩ := h
  obtain rfl : label = ns := hlabel
  -- From no functions to all of them, and nothing is left to be registered.
  have hregistered := Builder.fromSource_holding [] hexports hns hnodup []
  rw [List.append_nil, holding_nil, Builder.fromSource] at hregistered
  simp only [addNamespace, Source.find_eq_ok_iff.2 himports, NamespaceSpec.declarations,
    hregistered]
  rfl

/-- Behind functions that the module exports, registering goes on with the rest. -/
theorem fromSource_behind {source : Source} {front rest : Assoc (List ParamSpec)}
    (hfunctions : spec.functions = front ++ rest)
    (hfront : ∀ declared ∈ front, ∃ f, source.export? declared.1 = some (.function f))
    (hns : ns ∉ Assoc.names base) (hnodup : (Assoc.names spec.functions).Nodup) :
    ∃ registered, Builder.fromSource ⟨base, false⟩ ns source spec.declarations false =
      (Builder.holding base ns registered).fromSource ns source
        (rest.map fun entry => (entry.1, entry.2.map fun p => .param p.toParam)) false := by
  -- Only the functions in front are known to be exported; those behind may be what fails.
  obtain ⟨registered, hregistered⟩ := Source.exists_registered hfront
  have hnames : (Assoc.names front).Nodup := by
    rw [hfunctions, Assoc.names, List.map_append] at hnodup
    exact (List.nodup_append.1 hnodup).1
  refine ⟨registered, ?_⟩
  rw [NamespaceSpec.declarations, hfunctions, List.map_append, ← holding_nil base ns,
    Builder.fromSource_holding [] hregistered hns hnames]
  rfl

/-- A namespace that cannot be loaded fails with its first failure. -/
theorem addNamespace_of_fails {failure : Failure} (h : spec.Fails sources ns failure)
    (hns : ns ∉ Assoc.names base) (hnodup : (Assoc.names spec.functions).Nodup) :
    addNamespace sources ⟨base, false⟩ ns spec = .error failure := by
  -- The module is at fault in the first three cases, a function behind others in the last two.
  cases h with
  | unnamed h => simp [addNamespace, Source.find, h]
  | relative h =>
    have hempty : spec.source.isEmpty = false := by
      cases hsource : spec.source with
      | nil => simp [hsource] at h
      | cons => rfl
    simp [addNamespace, Source.find, hempty, h]
  | unknown hnonempty habsolute h =>
    have hempty : spec.source.isEmpty = false := by simpa using hnonempty
    simp [addNamespace, Source.find, hempty, habsolute, h]
  | missing himports hfunctions hfront h =>
    -- The functions in front are registered, so `name` is the one that registering comes to next.
    obtain ⟨registered, hbehind⟩ := fromSource_behind hfunctions hfront hns hnodup
    simp only [addNamespace, Source.find_eq_ok_iff.2 himports, hbehind, List.map_cons,
      Builder.fromSource_of_missing h]
  | notCallable himports hfunctions hfront h =>
    obtain ⟨registered, hbehind⟩ := fromSource_behind hfunctions hfront hns hnodup
    simp only [addNamespace, Source.find_eq_ok_iff.2 himports, hbehind, List.map_cons,
      Builder.fromSource_of_refused h (Builder.register_value (Builder.holding base _ _) rfl _ _)]

end Manifest

/-- A namespace that cannot be loaded has a first failure. -/
theorem NamespaceSpec.exists_fails {sources : List Source} {spec : NamespaceSpec}
    -- The cases follow the order in which loading finds out.
    (h : ¬ spec.IsLoadable sources) (ns : Text) : ∃ failure, spec.Fails sources ns failure := by
  by_cases hnonempty : spec.source = []
  · exact ⟨_, .unnamed hnonempty⟩
  by_cases habsolute : spec.source.head? = some (.char '.')
  · exact ⟨_, .relative habsolute⟩
  cases hfound : sources.find? (fun source => source.name == spec.source) with
  | none => exact ⟨_, .unknown hnonempty habsolute hfound⟩
  | some source =>
    -- The module can be imported, so a function is missing or none, and there is a first such.
    have himports : Source.Imports sources spec.source source := ⟨hnonempty, habsolute, hfound⟩
    rcases forall_or_exists_first (P := fun declared : Text × List ParamSpec =>
        ∃ f, source.export? declared.1 = some (.function f)) spec.functions with
      hall | ⟨front, ⟨name, params⟩, rest, hfunctions, hfront, hnot⟩
    · exact absurd ⟨source, himports, hall⟩ h
    · cases hexport : source.export? name with
      | none => exact ⟨_, .missing himports hfunctions hfront hexport⟩
      | some fn =>
        cases fn with
        | function f => exact absurd ⟨f, hexport⟩ hnot
        | value v => exact ⟨_, .notCallable himports hfunctions hfront hexport⟩

theorem NamespaceSpec.Fails.isRegistry_iff {sources : List Source} {ns : Text}
    {spec : NamespaceSpec} {failure : Failure} (h : spec.Fails sources ns failure) :
    (∃ fault, failure = .registry fault) ↔
      spec.source ≠ [] ∧ spec.source.head? ≠ some (.char '.') := by
  cases h with
  | unnamed h => simp [Failure.error, h]
  | relative h => simp [Failure.error, h]
  | unknown hnonempty habsolute => exact iff_of_true ⟨_, rfl⟩ ⟨hnonempty, habsolute⟩
  | missing himports => exact iff_of_true ⟨_, rfl⟩ ⟨himports.nonempty, himports.absolute⟩
  | notCallable himports => exact iff_of_true ⟨_, rfl⟩ ⟨himports.nonempty, himports.absolute⟩

/-! ## One namespace after the other -/

namespace Manifest

variable {sources : List Source} {front : Assoc NamespaceSpec} {full base : Table}

theorem names_inhabited_sublist (functions : Text × Assoc Registered) :
    (Assoc.names (Table.inhabited [functions])).Sublist [functions.1] :=
  (List.filter_sublist (l := [functions])).map Prod.fst

/-- What has to be new of namespaces that are loaded behind others. -/
theorem fresh_of_loads {entry : Text × NamespaceSpec} {functions : Text × Assoc Registered}
    {rest : Assoc NamespaceSpec} (h : Loads sources entry functions)
    (hnodup : (Assoc.names base ++ Assoc.names (entry :: rest)).Nodup) :
    entry.1 ∉ Assoc.names base ∧
      (Assoc.names (base ++ Table.inhabited [functions]) ++ Assoc.names rest).Nodup := by
  obtain ⟨hnew, hrest⟩ := Builder.fresh_of_nodup hnodup
  refine ⟨hnew, hrest.sublist ?_⟩
  -- An empty namespace is left out, so names are lost at most.
  have hnames : (Assoc.names (base ++ Table.inhabited [functions])).Sublist
      (Assoc.names base ++ [entry.1]) := by
    rw [Assoc.names, List.map_append, ← h.name]
    exact (List.Sublist.refl _).append (names_inhabited_sublist functions)
  exact hnames.append (List.Sublist.refl _)

theorem inhabited_cons (functions : Text × Assoc Registered) (full : Table) :
    Table.inhabited (functions :: full) = Table.inhabited [functions] ++ full.inhabited := by
  rw [← List.singleton_append, Table.inhabited, List.filter_append]
  rfl

/-- Behind namespaces that can be loaded, loading goes on with the rest. -/
theorem loadInto_append (base : Table) (h : List.Forall₂ (Loads sources) front full)
    (hnodup : (Assoc.names base ++ Assoc.names front).Nodup)
    (hfunctions : ∀ entry ∈ front, (Assoc.names entry.2.functions).Nodup)
    (rest : Assoc NamespaceSpec) :
    (loadInto sources (front ++ rest) ⟨base, false⟩).result =
      (loadInto sources rest ⟨base ++ full.inhabited, false⟩).result := by
  -- On the namespaces in front, for whatever table stands before them.
  induction h generalizing base with
  | nil => rw [Table.inhabited, List.filter_nil, List.append_nil, List.nil_append]
  | @cons entry functions front full hfirst _ ih =>
    obtain ⟨ns, spec⟩ := entry
    obtain ⟨hnew, hrest⟩ := fresh_of_loads hfirst hnodup
    obtain ⟨hspec, hothers⟩ := List.forall_mem_cons.1 hfunctions
    rw [List.cons_append, loadInto, addNamespace_of_loads hfirst hnew hspec]
    show (loadInto sources (front ++ rest) _).result = _
    rw [ih _ hrest hothers, inhabited_cons functions full, List.append_assoc]

theorem names_inhabited (h : List.Forall₂ (Loads sources) front full) :
    Assoc.names (Table.inhabited full) ⊆ Assoc.names front := by
  induction h with
  | nil => exact fun _ h => h
  | @cons entry functions front full hfirst _ ih =>
    intro name hname
    rw [inhabited_cons functions full, Assoc.names, List.map_append, List.mem_append] at hname
    rcases hname with hname | hname
    · -- The first namespace is in the table under its own name, if it is there at all.
      have hmem := (names_inhabited_sublist functions).subset hname
      rw [hfirst.name] at hmem
      exact List.mem_cons.2 (.inl (List.mem_singleton.1 hmem))
    · exact List.mem_cons_of_mem _ (ih hname)

/-- The namespaces of a manifest are built as they are described. -/
theorem go_described (base : Table) (h : List.Forall₂ (Loads sources) front full)
    (hnodup : (Assoc.names base ++ Assoc.names front).Nodup)
    (hfunctions : ∀ entry ∈ front, (Assoc.names entry.2.functions).Nodup) :
    Table.build.go (described sources ⟨front⟩) ⟨base, false⟩ = .ok (base ++ full.inhabited) := by
  -- As for loading, with the same table in every state in between.
  induction h generalizing base with
  | nil =>
    rw [Table.inhabited, List.filter_nil, List.append_nil]
    rfl
  | @cons entry functions front full hfirst _ ih =>
    obtain ⟨ns, spec⟩ := entry
    obtain ⟨label, registered⟩ := functions
    obtain ⟨hnew, hrest⟩ := fresh_of_loads hfirst hnodup
    obtain ⟨hspec, hothers⟩ := List.forall_mem_cons.1 hfunctions
    obtain ⟨hlabel, source, himports, hexports⟩ := hfirst
    obtain rfl : label = ns := hlabel
    -- The module that is found for the namespace is the one that its attributes are taken from.
    have hexported (name : Text) : Source.exported sources spec.source name =
        (source.export? name).getD (.value .null) := by
      rw [Source.exported, himports.found, Option.bind_some]
    have hnamespace := Builder.goNamespace_holding [] hexports hnew hspec
    simp only [holding_nil, List.nil_append] at hnamespace
    simp only [described, List.map_cons, hexported, Table.build.go, hnamespace]
    exact (ih _ hrest hothers).trans (by rw [inhabited_cons _ full, List.append_assoc])

variable {m : Manifest}

theorem load_of_loads (hvalid : m.IsValid) (h : List.Forall₂ (Loads sources) m.namespaces full) :
    (m.load sources).result = .ok full.inhabited := by
  have hload := loadInto_append [] h hvalid.namespaces hvalid.functions []
  rw [List.append_nil, List.nil_append] at hload
  exact hload

/-- Loading ends with the failure of the first namespace that cannot be loaded. -/
theorem load_of_fails {ns : Text} {spec : NamespaceSpec} {rest : Assoc NamespaceSpec}
    {failure : Failure} (hvalid : m.IsValid) (hnamespaces : m.namespaces = front ++ (ns, spec) :: rest)
    (hfront : List.Forall₂ (Loads sources) front full) (hfails : spec.Fails sources ns failure) :
    (m.load sources).result = .error failure := by
  have hnodup := hvalid.namespaces
  have hfunctions := hvalid.functions
  rw [hnamespaces] at hnodup hfunctions
  -- Names that are distinct in front and behind keep the failing namespace out of what is loaded.
  obtain ⟨hfrontNodup, -, hdisjoint⟩ : (Assoc.names front).Nodup ∧
      (Assoc.names ((ns, spec) :: rest)).Nodup ∧ _ :=
    List.nodup_append.1 (by simpa [Assoc.names] using hnodup)
  obtain ⟨hfrontFunctions, hspec⟩ := List.forall_mem_append.1 hfunctions
  have hns : ns ∉ Assoc.names full.inhabited := fun hmem =>
    hdisjoint ns (names_inhabited hfront hmem) ns List.mem_cons_self rfl
  rw [load, hnamespaces]
  -- Loading gets to the failing namespace with the table of those in front.
  refine (loadInto_append [] hfront hfrontNodup hfrontFunctions _).trans ?_
  rw [List.nil_append, loadInto, addNamespace_of_fails hfails hns (hspec _ List.mem_cons_self)]

/-- Loading comes to a table where every namespace can be loaded, and ends with the first failure
where one cannot. -/
theorem load_cases (sources : List Source) (hvalid : m.IsValid) :
    (∃ full, List.Forall₂ (Loads sources) m.namespaces full ∧
      (m.load sources).result = .ok (Table.inhabited full)) ∨
    (¬ ∀ entry ∈ m.namespaces, entry.2.IsLoadable sources) ∧
      ∃ failure, m.FailsFirst sources failure ∧ (m.load sources).result = .error failure := by
  have hloads {front : Assoc NamespaceSpec} (h : ∀ entry ∈ front, entry.2.IsLoadable sources) :
      ∃ full, List.Forall₂ (Loads sources) front full :=
    exists_forall₂_iff.2 fun entry hentry => exists_loads_iff.2 (h entry hentry)
  rcases forall_or_exists_first (P := fun entry : Text × NamespaceSpec =>
      entry.2.IsLoadable sources) m.namespaces with
    hall | ⟨front, ⟨ns, spec⟩, rest, hnamespaces, hfront, hnot⟩
  · obtain ⟨full, hfull⟩ := hloads hall
    exact .inl ⟨full, hfull, load_of_loads hvalid hfull⟩
  · -- Where one cannot be loaded, all in front of the first such one are.
    obtain ⟨full, hfull⟩ := hloads hfront
    obtain ⟨failure, hfails⟩ := NamespaceSpec.exists_fails hnot ns
    refine .inr ⟨fun hall => hnot (hall (ns, spec) (by simp [hnamespaces])), failure, ?_,
      load_of_fails hvalid hnamespaces hfull hfails⟩
    exact ⟨front, ns, spec, rest, hnamespaces, hfront, hfails, hfails.isRegistry_iff⟩

/-- A table that was loaded is what the manifest declares. -/
theorem isLoadedAs_of_load {table : Table} (hvalid : m.IsValid)
    (hload : (m.load sources).result = .ok table) : m.IsLoadedAs sources table := by
  rcases load_cases sources hvalid with ⟨full, hfull, hok⟩ | ⟨-, failure, -, herror⟩
  · exact ⟨full, hfull, Except.ok.inj (hload.symm.trans hok)⟩
  · cases hload.symm.trans herror

/-- **Loading a manifest builds the registry that it describes.**  A valid manifest can be loaded
exactly when each of its modules can be imported and exports every function that is declared of it.
Loading then comes to the table that is built of what the manifest describes, which holds every
declared function once and in order, and no empty namespace.  Otherwise it ends with the first
failure in the order of the manifest. -/
theorem load_builds_described (sources : List Source) {m : Manifest} (hvalid : m.IsValid) :
    ((∃ table, (m.load sources).result = .ok table) ↔
      ∀ entry ∈ m.namespaces, entry.2.IsLoadable sources) ∧
    (∀ table, (m.load sources).result = .ok table →
      Table.build (m.described sources) = .ok table ∧ m.IsLoadedAs sources table) ∧
    ∀ failure, (m.load sources).result = .error failure → m.FailsFirst sources failure := by
  rcases load_cases sources hvalid with ⟨full, hfull, hload⟩ | ⟨hnot, failure, hfirst, hload⟩
  · have hall : ∀ entry ∈ m.namespaces, entry.2.IsLoadable sources := fun entry hentry =>
      exists_loads_iff.1 (exists_forall₂_iff.1 ⟨full, hfull⟩ entry hentry)
    rw [hload]
    refine ⟨iff_of_true ⟨_, rfl⟩ hall, ?_, nofun⟩
    rintro table ⟨⟩
    exact ⟨go_described [] hfull hvalid.namespaces hvalid.functions, full, hfull, rfl⟩
  · rw [hload]
    refine ⟨iff_of_false nofun hnot, nofun, ?_⟩
    rintro _ ⟨⟩
    exact hfirst

/-- A manifest of functions from two modules, and with a namespace in between that declares nothing. -/
theorem load_builds_described_tools :
    let m : Manifest := ⟨[
      ("tools".text, ⟨"oracle_fns".text, [
        ("two".text, [⟨"first".text, "string".text, false⟩, ⟨"second?".text, "any".text, false⟩]),
        ("spy".text, [])]⟩),
      ("nothing".text, ⟨"rpc_fixtures".text, []⟩),
      ("math".text, ⟨"rpc_fixtures".text, [("hello".text, [⟨"name".text, "string".text, true⟩])]⟩)]⟩
    m.IsValid ∧ ∃ table, (m.load Sample.sources).result = .ok table ∧
      Table.build (m.described Sample.sources) = .ok table ∧ m.IsLoadedAs Sample.sources table ∧
      Assoc.names table = ["tools".text, "math".text] := by
  intro m
  have hvalid : m.IsValid := ⟨by decide, by decide, by decide⟩
  obtain ⟨-, hloaded, -⟩ := load_builds_described Sample.sources hvalid
  obtain ⟨hbuilt, hmatches⟩ := hloaded _ rfl
  exact ⟨hvalid, _, rfl, hbuilt, hmatches, rfl⟩

/-- A module without a name cannot be imported, and this is no failure of the registry. -/
theorem load_unnamed_module :
    let m : Manifest := ⟨[("m".text, ⟨[], []⟩)]⟩
    m.IsValid ∧ ∃ failure, (m.load Sample.sources).result = .error failure ∧
      ∀ fault, failure ≠ .registry fault :=
  ⟨⟨by decide, by decide, by decide⟩, _, rfl, nofun⟩

end Manifest

end RpcContract
