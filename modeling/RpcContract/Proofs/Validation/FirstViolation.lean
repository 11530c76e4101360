import RpcContract.Proofs.Validation.Refusal

/-!
# The first violation

What a check reports is the first violation that there is.  A chain of accessors leads to it, through
the schema and the value at once, and passes by fields and items that are right; at its end stands a
value that is not of the outermost form that its schema asks for, or that lacks a declared property.
The report names the place by its chain.  Nothing else is reported and nothing that is found so is
passed over.
-/

namespace RpcContract

/-- What is absent has no items. -/
theorem Value.items?_of_isAbsent {v : Value} (h : v.isAbsent = true) : v.items? = none := by
  cases v with
  | list | tuple => cases h
  | _ => rfl

/-- What is absent has no members. -/
theorem Value.members?_of_isAbsent {v : Value} (h : v.isAbsent = true) : v.members? = none := by
  cases v with
  | record => cases h
  | _ => rfl

/-- The place that a chain of accessors leads to from another place. -/
def Path.extend (p : Path) (chain : List Accessor) : Path := ⟨p.start, p.steps ++ chain⟩

theorem Path.extend_nil (p : Path) : p.extend [] = p := by rw [extend, List.append_nil]

theorem Path.extend_cons (p : Path) (accessor : Accessor) (chain : List Accessor) :
    p.extend (accessor :: chain) = (p.step accessor).extend chain := by
  simp only [extend, step, List.append_assoc, List.singleton_append]

namespace Schema

/-! ## What a violation is -/

/-- A value is not of the outermost form that a schema asks for, whatever stands inside it. -/
def Violates (allowNull : AllowNull) (schema : Schema) (v : Value) : Prop :=
  if v.isAbsent then allowNull = false ∧ schema ≠ .any
  else
    match schema with
    | .text t =>
      (Text.endsWith t "[]".text = true ∧ v.items? = none) ∨ (t ∈ primitives ∧ v.tag ≠ t)
    | .object _ _ => v.members? = none
    | .raw _ => False

/-- An accessor leads from a schema and a value to a part of either: to a member and the schema of
its field, or to an item and the text of its type.  The fields and the items in front are right. -/
inductive StepsTo (allowNull : AllowNull) : Schema → Value → Accessor → Schema → Value → Prop where
  | member {form : ObjectForm} {fields : List (Field Schema)} {v u : Value} {members : Assoc Value}
      {i : Nat} {field : Field Schema} (hmembers : v.members? = some members)
      (hfield : fields[i]? = some field) (hfind : Assoc.find? field.name members = some u)
      (hearlier : ∀ j < i, ∀ other, fields[j]? = some other →
        AdmitsField allowNull form other members) :
      StepsTo allowNull (.object form fields) v (.member field.name) field.schema u
  | item {t type : Text} {v u : Value} {items : List Value} {i : Nat}
      (htext : t = type ++ "[]".text) (hitems : v.items? = some items) (hitem : items[i]? = some u)
      (hearlier : ∀ j < i, ∀ other, items[j]? = some other →
        (Schema.text type).Admits allowNull other) :
      StepsTo allowNull (.text t) v (.item i) (.text type) u

/-- A chain of accessors leads from a schema and a value to parts of them. -/
inductive LeadsTo (allowNull : AllowNull) :
    Schema → Value → List Accessor → Schema → Value → Prop where
  | here (schema : Schema) (v : Value) : LeadsTo allowNull schema v [] schema v
  | step {schema inner last : Schema} {v u w : Value} {accessor : Accessor} {chain : List Accessor}
      (h : StepsTo allowNull schema v accessor inner u)
      (hchain : LeadsTo allowNull inner u chain last w) :
      LeadsTo allowNull schema v (accessor :: chain) last w

/-- An object has no member for a field that may not be missing.  The fields in front are right. -/
inductive Lacks (allowNull : AllowNull) : Schema → Value → Text → Prop where
  | intro {form : ObjectForm} {fields : List (Field Schema)} {v : Value} {members : Assoc Value}
      {i : Nat} {field : Field Schema} (hmembers : v.members? = some members)
      (hfield : fields[i]? = some field) (hfind : Assoc.find? field.name members = none)
      (hrequired : ¬ (form = .literal ∧ field.optional = true))
      (hearlier : ∀ j < i, ∀ other, fields[j]? = some other →
        AdmitsField allowNull form other members) :
      Lacks allowNull (.object form fields) v field.name

/-- What is reported of a value at a place: that it violates its schema, or what it lacks. -/
inductive Reports (allowNull : AllowNull) (path : Path) : Schema → Value → Violation → Prop where
  | mismatch {schema : Schema} {v : Value} (h : Violates allowNull schema v) :
      Reports allowNull path schema v (.mismatch path schema v.tag)
  | missing {schema : Schema} {v : Value} {name : Text} (h : Lacks allowNull schema v name) :
      Reports allowNull path schema v (.missing path name)

/-- Of a value that is not checked against an object nothing but a mismatch is reported. -/
theorem reports_text_iff {allowNull : AllowNull} {path : Path} {t : Text} {v : Value}
    {violation : Violation} : Reports allowNull path (.text t) v violation ↔
      Violates allowNull (.text t) v ∧ violation = .mismatch path (.text t) v.tag := by
  constructor
  · rintro (⟨hviolates⟩ | ⟨⟨⟩⟩)
    exact ⟨hviolates, rfl⟩
  · rintro ⟨hviolates, rfl⟩
    exact .mismatch hviolates

theorem StepsTo.isTextual {allowNull : AllowNull} {schema inner : Schema} {v u : Value}
    {accessor : Accessor} (h : StepsTo allowNull schema v accessor inner u)
    (htextual : schema.isTextual = true) : inner.isTextual = true := by
  -- A field of a textual object is textual, and the text of an item type is a text.
  cases h with
  | member _ hfield => exact areTextual_iff.1 htextual _ (List.mem_of_getElem? hfield)
  | item => rfl

end Schema

/-- What is reported of what is given for a parameter: nothing is given but must be, or a chain leads
to a violation in the value that is given and counts. -/
inductive Param.Reports (allowNull : AllowNull) (param : Param) : Option Value → Violation → Prop where
  | notProvided (h : param.optional = false) :
      Reports allowNull param none (.notProvided param.name)
  | value {arg w : Value} {chain : List Accessor} {last : Schema} {violation : Violation}
      (hcounts : ¬ (param.optional = true ∧ arg.isAbsent = true))
      (hleads : param.type.LeadsTo allowNull arg chain last w)
      (hreports : Schema.Reports allowNull ⟨param.name, chain⟩ last w violation) :
      Reports allowNull param (some arg) violation

theorem Schema.StepsTo.isPart {allowNull : AllowNull} {schema inner : Schema} {v u : Value}
    {accessor : Accessor} (h : StepsTo allowNull schema v accessor inner u) : u.IsPart v := by
  cases h with
  | member hmembers _ hfind => exact .inr ⟨_, _, hmembers, hfind⟩
  | item _ hitems hitem => exact .inl ⟨_, hitems, List.mem_of_getElem? hitem⟩

namespace Validation

open Schema (Violates Lacks StepsTo LeadsTo Reports AdmitsField)

variable {allowNull : AllowNull} {rejection : Rejection} {v : Value} {path : Path}

/-! ## One step of a check -/

/-- A type text with `[]` at its end is checked item by item. -/
theorem check_items (type : Text) : check allowNull (.text (type ++ "[]".text)) v path =
    if v.isAbsent then
      if allowNull then .ok () else mismatch path (.text (type ++ "[]".text)) v
    else match v.items? with
      | some items => checkEach (check allowNull (.text type)) path 0 items
      | none => mismatch path (.text (type ++ "[]".text)) v := by
  -- Checking an item is checking it against the base with one pair of brackets fewer.
  have hitems : checkArray allowNull (arrayParts type).1 (arrayParts type).2 =
      check allowNull (.text type) := by
    funext v path
    rw [check]
  have htext : type ++ "[]".text = arrayText (arrayParts type).1 ((arrayParts type).2 + 1) := by
    rw [arrayText, arrayText_arrayParts]
  have hcheck : check allowNull (.text (type ++ "[]".text)) v path =
      checkArray allowNull (arrayParts type).1 ((arrayParts type).2 + 1) v path := by
    rw [check, arrayParts_append]
  rw [hcheck, ← hitems, htext]
  rfl

theorem any_not_endsWith : Text.endsWith Schema.anyText "[]".text = false := by decide

theorem primitive_not_endsWith : ∀ t ∈ Schema.primitives, Text.endsWith t "[]".text = false := by
  decide

/-- A check against an array type fails at the value itself or at the first item that is wrong. -/
theorem check_items_eq_error_iff (type : Text) :
    check allowNull (.text (type ++ "[]".text)) v path = .error rejection ↔
      (Violates allowNull (.text (type ++ "[]".text)) v ∧
        rejection = .violation (.mismatch path (.text (type ++ "[]".text)) v.tag)) ∨
      ∃ items, v.items? = some items ∧ FirstAt (fun _ => (Schema.text type).Admits allowNull)
        (fun i item => check allowNull (.text type) item (path.step (.item i)) = .error rejection)
        items := by
  -- Of the three parts of `Violates`, only the one about items can apply to such a text.
  have hends : Text.endsWith (type ++ "[]".text) "[]".text = true := Text.endsWith_iff.2 ⟨type, rfl⟩
  have hany : Schema.text (type ++ "[]".text) ≠ .any := by
    intro h
    rw [Schema.text.inj h, any_not_endsWith] at hends
    cases hends
  have hprimitive : type ++ "[]".text ∉ Schema.primitives := by
    intro h
    rw [primitive_not_endsWith _ h] at hends
    cases hends
  rw [check_items, Violates]
  -- An absent value has no items, so only the violation of the value itself is left.
  by_cases habsent : v.isAbsent = true
  · have hitems := Value.items?_of_isAbsent habsent
    cases allowNull <;> simp [habsent, hany, hitems, mismatch, eq_comm]
  rw [if_neg habsent, if_neg habsent]
  -- What is no list is a violation itself; of a list the first wrong item is.
  cases hitems : v.items? with
  | none => simp [hends, mismatch, eq_comm]
  | some items =>
    have hitem (item : Value) (path : Path) : check allowNull (.text type) item path = .ok () ↔
        (Schema.text type).Admits allowNull item := check_text_eq_ok_iff
    simpa [hprimitive] using checkEach_eq_error_iff hitem 0

/-- A check against any other type text fails at the value itself. -/
theorem check_base_eq_error_iff {t : Text} (hends : Text.endsWith t "[]".text = false) :
    check allowNull (.text t) v path = .error rejection ↔
      Violates allowNull (.text t) v ∧ rejection = .violation (.mismatch path (.text t) v.tag) := by
  rw [check, arrayParts_of_not_endsWith hends, checkArray, Violates, primitiveTag?_eq]
  -- Without brackets at the end the text is its own base, and the cases are those of the base.
  by_cases hany : t = Schema.anyText
  · have hprimitive : Schema.anyText ∉ Schema.primitives := by decide
    subst hany
    simp [Schema.any, hends, hprimitive]
  have hschema : Schema.text t ≠ .any := fun h => hany (Schema.text.inj h)
  rw [if_neg hany]
  by_cases habsent : v.isAbsent = true
  · cases allowNull <;> simp [habsent, hschema, mismatch, eq_comm]
  rw [if_neg habsent, if_neg habsent]
  by_cases hprimitive : t ∈ Schema.primitives
  · by_cases htag : v.tag = t <;> simp [hprimitive, htag, hends, mismatch, eq_comm]
  · simp [hprimitive, hends]

/-- A check against an object fails at the value itself or at the first field that is wrong. -/
theorem check_object_eq_error_iff {form : ObjectForm} {fields : List (Field Schema)} :
    check allowNull (.object form fields) v path = .error rejection ↔
      (Violates allowNull (.object form fields) v ∧
        rejection = .violation (.mismatch path (.object form fields) v.tag)) ∨
      ∃ members, v.members? = some members ∧
        FirstAt (fun _ field => AdmitsField allowNull form field members)
          (fun _ => FieldFails allowNull form members path rejection) fields := by
  rw [check, Violates]
  -- What is absent has no members, and an object is not `any`.
  by_cases habsent : v.isAbsent = true
  · have hmembers := Value.members?_of_isAbsent habsent
    cases allowNull <;> simp [habsent, hmembers, Schema.any, mismatch, eq_comm]
  rw [if_neg habsent, if_neg habsent]
  cases hmembers : v.members? with
  | none => simp [mismatch, eq_comm]
  | some members => simpa using checkFields_eq_error_iff

/-- A check fails with what is reported of the value itself, or with what the check of the first
part that is wrong fails with. -/
theorem check_eq_error_step {schema : Schema} (htextual : schema.isTextual = true) :
    check allowNull schema v path = .error rejection ↔
      (∃ violation, Reports allowNull path schema v violation ∧
        rejection = .violation violation) ∨
      ∃ accessor inner u, StepsTo allowNull schema v accessor inner u ∧
        check allowNull inner u (path.step accessor) = .error rejection := by
  cases schema with
  | raw w => exact absurd htextual (by simp [Schema.isTextual])
  | text t =>
    have hreports : (∃ violation, Reports allowNull path (.text t) v violation ∧
        rejection = .violation violation) ↔ Violates allowNull (.text t) v ∧
          rejection = .violation (.mismatch path (.text t) v.tag) := by
      simp [Schema.reports_text_iff, and_assoc]
    rw [hreports]
    by_cases hends : Text.endsWith t "[]".text = true
    · obtain ⟨type, rfl⟩ := Text.endsWith_iff.1 hends
      rw [check_items_eq_error_iff]
      -- The violation of the value itself is the same on both sides; what is left are the items.
      refine or_congr_right ?_
      constructor
      · rintro ⟨items, hitems, i, item, hitem, hcheck, hearlier⟩
        exact ⟨_, _, _, .item rfl hitems hitem hearlier, hcheck⟩
      · rintro ⟨_, _, _, hstep, hcheck⟩
        cases hstep with
        | item htext hitems hitem hearlier =>
          obtain rfl := List.append_cancel_right htext
          exact ⟨_, hitems, _, _, hitem, hcheck, hearlier⟩
    · rw [check_base_eq_error_iff (by simpa using hends)]
      refine (or_iff_left ?_).symm
      -- Without `[]` at its end a text has no items to step to.
      rintro ⟨_, _, _, hstep, _⟩
      cases hstep with
      | item htext => exact absurd (Text.endsWith_iff.2 ⟨_, htext⟩) hends
  | object form fields =>
    rw [check_object_eq_error_iff]
    constructor
    · rintro (⟨hviolates, rfl⟩ | ⟨members, hmembers, i, field, hfield, hfails, hearlier⟩)
      · exact .inl ⟨_, .mismatch hviolates, rfl⟩
      · -- A field that fails lacks its member, which is reported here, or has one that fails, which
        -- is a step.
        obtain ⟨hfind, hrequired, rfl⟩ | ⟨u, hfind, hcheck⟩ := hfails
        · exact .inl ⟨_, .missing ⟨hmembers, hfield, hfind, hrequired, hearlier⟩, rfl⟩
        · exact .inr ⟨_, _, _, .member hmembers hfield hfind hearlier, hcheck⟩
    · rintro (⟨_, h, rfl⟩ | ⟨_, _, _, h, hcheck⟩)
      · cases h with
        | mismatch hviolates => exact .inl ⟨hviolates, rfl⟩
        | missing hlacks =>
          obtain ⟨hmembers, hfield, hfind, hrequired, hearlier⟩ := hlacks
          exact .inr ⟨_, hmembers, _, _, hfield, .inl ⟨hfind, hrequired, rfl⟩, hearlier⟩
      · cases h with
        | member hmembers hfield hfind hearlier =>
          exact .inr ⟨_, hmembers, _, _, hfield, .inr ⟨_, hfind, hcheck⟩, hearlier⟩

/-! ## The whole check -/

/-- What a check reports is at the end of a chain. -/
theorem exists_chain_of_check_eq_error {schema : Schema} (htextual : schema.isTextual = true)
    (h : check allowNull schema v path = .error rejection) :
    ∃ chain last w violation, LeadsTo allowNull schema v chain last w ∧
      Reports allowNull (path.extend chain) last w violation ∧
      rejection = .violation violation := by
  -- Every step leads to a part of the value, so the induction is over the value.
  induction v using Value.of_parts generalizing schema path with
  | h v ih =>
    -- The check fails here, and the chain ends, or it fails in a part, and the chain of that part
    -- is one longer.
    rcases (check_eq_error_step htextual).1 h with
      ⟨violation, hreports, rfl⟩ | ⟨accessor, inner, u, hstep, hcheck⟩
    · refine ⟨[], schema, v, violation, .here schema v, ?_, rfl⟩
      rwa [Path.extend_nil]
    · obtain ⟨chain, last, w, violation, hleads, hreports, hrejection⟩ :=
        ih u hstep.isPart (hstep.isTextual htextual) hcheck
      refine ⟨accessor :: chain, last, w, violation, .step hstep hleads, ?_, hrejection⟩
      rwa [Path.extend_cons]

/-- What is at the end of a chain is what the check reports. -/
theorem check_eq_error_of_leadsTo {schema last : Schema} {w : Value} {chain : List Accessor}
    {violation : Violation} (htextual : schema.isTextual = true)
    (hleads : LeadsTo allowNull schema v chain last w)
    (hreports : Reports allowNull (path.extend chain) last w violation) :
    check allowNull schema v path = .error (.violation violation) := by
  -- Over the chain, for every place, since each step moves the place on.
  induction hleads generalizing path with
  | here schema v =>
    rw [Path.extend_nil] at hreports
    exact (check_eq_error_step htextual).2 (.inl ⟨violation, hreports, rfl⟩)
  | step hstep _ ih =>
    rw [Path.extend_cons] at hreports
    have hcheck := ih (hstep.isTextual htextual) hreports
    exact (check_eq_error_step htextual).2 (.inr ⟨_, _, _, hstep, hcheck⟩)

/-- A check fails exactly with what is reported at the end of a chain. -/
theorem check_eq_error_iff {schema : Schema} {start : Value} (htextual : schema.isTextual = true) :
    check allowNull schema v (.root start) = .error rejection ↔
      ∃ chain last w violation, LeadsTo allowNull schema v chain last w ∧
        Reports allowNull ⟨start, chain⟩ last w violation ∧ rejection = .violation violation := by
  constructor
  · intro h
    exact exists_chain_of_check_eq_error htextual h
  · rintro ⟨chain, last, w, violation, hleads, hreports, rfl⟩
    exact check_eq_error_of_leadsTo htextual hleads hreports

theorem argFails_iff {param : Param} (htextual : param.type.isTextual = true)
    {given : Option Value} : ArgFails allowNull rejection param given ↔
      ∃ violation, param.Reports allowNull given violation ∧ rejection = .violation violation := by
  -- Either nothing is given, or a value that counts, and then its check is the one above.
  cases given with
  | none =>
    constructor
    · rintro ⟨hrequired, rfl⟩
      exact ⟨_, .notProvided hrequired, rfl⟩
    · rintro ⟨_, ⟨hrequired⟩, rfl⟩
      exact ⟨hrequired, rfl⟩
  | some arg =>
    rw [ArgFails, check_eq_error_iff htextual]
    constructor
    · rintro ⟨hcounts, chain, last, w, violation, hleads, hreports, rfl⟩
      exact ⟨violation, .value hcounts hleads hreports, rfl⟩
    · rintro ⟨violation, hparam, rfl⟩
      cases hparam with
      | value hcounts hleads hreports => exact ⟨hcounts, _, _, _, _, hleads, hreports, rfl⟩

/-- A check of arguments one by one fails exactly with what is reported of the first that is wrong. -/
theorem checkEachArg_eq_error_first {params : List Param} {args : List Value}
    (htextual : ∀ param ∈ params, param.type.isTextual = true) :
    checkEachArg allowNull params args = .error rejection ↔
      ∃ violation, rejection = .violation violation ∧
        FirstAt (fun i param => param.Admits allowNull args[i]?)
          (fun i param => param.Reports allowNull args[i]? violation) params := by
  rw [checkEachArg_eq_error_iff]
  constructor
  · rintro ⟨i, param, hparam, hfails, hearlier⟩
    have htype := htextual param (List.mem_of_getElem? hparam)
    obtain ⟨violation, hreports, hrejection⟩ := (argFails_iff htype).1 hfails
    exact ⟨violation, hrejection, i, param, hparam, hreports, hearlier⟩
  · rintro ⟨violation, hrejection, i, param, hparam, hreports, hearlier⟩
    have htype := htextual param (List.mem_of_getElem? hparam)
    exact ⟨i, param, hparam, (argFails_iff htype).2 ⟨violation, hreports, hrejection⟩, hearlier⟩

end Validation

end RpcContract
