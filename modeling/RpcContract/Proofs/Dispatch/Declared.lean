import RpcContract.Proofs.Dispatch.Arity
import RpcContract.Proofs.Validation.Acceptance
import RpcContract.Proofs.Wire.Materialized

/-!
# What reaches a function

The arguments of a request are checked as they are decoded, and a function is called with what
materializing makes of them.  A value passes a check exactly when what is made of it does, so what
reaches a function is what was declared: each argument is of the type of its parameter, or null
where the parameter is optional, and nothing is undefined.
-/

namespace RpcContract

/-! ## Checking before and after -/

namespace Schema

variable {allowNull : AllowNull}

theorem admitsArray_materialize (base : Text) (depth : Nat) (v : Value) :
    AdmitsArray allowNull base depth (Wire.materialize v) ↔ AdmitsArray allowNull base depth v := by
  induction depth generalizing v with
  | zero =>
    rw [AdmitsArray, AdmitsArray, Wire.isAbsent_materialize]
    -- An absent value is as much of the type before as after; any other keeps its tag.
    by_cases habsent : v.isAbsent = true
    · rw [if_pos habsent, if_pos habsent]
    · rw [if_neg habsent, if_neg habsent, Wire.tag_materialize habsent]
  | succ depth ih =>
    -- One level of brackets: materializing keeps what is absent, and a list a list.
    rw [AdmitsArray, AdmitsArray, Wire.isAbsent_materialize]
    by_cases habsent : v.isAbsent = true
    · rw [if_pos habsent, if_pos habsent]
    · rw [if_neg habsent, if_neg habsent]
      -- A tuple keeps its items, and a list has each of them materialized.
      rcases Wire.items?_materialize v with hitems | hitems
      · rw [hitems]
      · rw [hitems]
        cases v.items? with
        | none => simp
        | some items => simp [ih]

theorem admitsField_materialize {form : ObjectForm} {field : Field Schema}
    (h : ∀ v, field.schema.Admits allowNull (Wire.materialize v) ↔ field.schema.Admits allowNull v)
    (members : Assoc Value) :
    AdmitsField allowNull form field (Wire.materializeMembers members) ↔
      AdmitsField allowNull form field members := by
  unfold AdmitsField
  rw [Wire.find?_materializeMembers]
  cases Assoc.find? field.name members with
  | none => exact Iff.rfl
  | some v => exact h v

/-- Materializing neither makes a value one of a type nor keeps it from being one. -/
theorem admits_materialize {schema : Schema} {v : Value} :
    schema.Admits allowNull (Wire.materialize v) ↔ schema.Admits allowNull v := by
  -- On the schema; the value changes on the way into a field, so it is generalised.
  induction schema using Schema.structural generalizing v with
  | text t => rw [admits_text_iff, admits_text_iff, admitsArray_materialize]
  | raw w => rw [Admits, Admits, Wire.isAbsent_materialize]
  -- The members are materialized one by one, each under the name that it had.
  | object form fields ih =>
    rw [Admits, Admits, Wire.isAbsent_materialize, Wire.members?_materialize]
    by_cases habsent : v.isAbsent = true
    · rw [if_pos habsent, if_pos habsent]
    · rw [if_neg habsent, if_neg habsent]
      -- What is no object has no members before or after.
      cases v.members? with
      | none => simp
      | some members =>
        have hfields : AdmitsFields allowNull form fields (Wire.materializeMembers members) ↔
            AdmitsFields allowNull form fields members := by
          rw [admitsFields_iff, admitsFields_iff]
          constructor
          · intro hall field hfield
            exact (admitsField_materialize (fun v => ih field hfield) members).1 (hall field hfield)
          · intro hall field hfield
            exact (admitsField_materialize (fun v => ih field hfield) members).2 (hall field hfield)
        simpa using hfields

end Schema

/-! ## What a call gets -/

namespace Dispatch

/-- What a function is called with, against its declaration and the arguments that were checked. -/
structure AsDeclared (allowNull : AllowNull) (target : Registered) (args passed : List Value) :
    Prop where
  length_le : passed.length ≤ target.most
  /-- What is not passed on was undefined. -/
  undefined_behind : ∀ (i : Nat) (arg : Value), passed.length ≤ i → args[i]? = some arg →
    arg = .undefined
  defined : ∀ v ∈ passed, v.isDefined = true
  /-- What is passed on is of the declared type, or null where the parameter is optional. -/
  typed : ∀ (i : Nat) (v : Value), passed[i]? = some v → ∃ param, target.params[i]? = some param ∧
    ((param.optional = true ∧ v = .null) ∨
      ∀ path, Validation.check allowNull param.type v path = .ok ())

theorem asDeclared {allowNull : AllowNull} {target : Registered} {args : List Value}
    (h : Validation.checkArgs allowNull target.params args = .ok ()) :
    AsDeclared allowNull target args (Wire.materializeArgs args) := by
  -- The check is read argument by argument, as what each parameter admits.
  obtain ⟨hmost, heach⟩ := Validation.checkArgs_eq_ok_iff.1 h
  refine ⟨Nat.le_trans (Wire.length_materializeArgs_le args) hmost, ?_, ?_, ?_⟩
  · intro i arg hi harg
    exact Wire.eq_undefined_of_length_le hi harg
  · intro v hv
    -- Whatever is passed on was materialized, so nothing undefined is left in it.
    obtain ⟨i, hi⟩ := List.getElem?_of_mem hv
    obtain ⟨arg, _, rfl⟩ := Wire.getElem?_materializeArgs hi
    exact Wire.isDefined_materialize arg
  · intro i v hv
    obtain ⟨arg, harg, rfl⟩ := Wire.getElem?_materializeArgs hv
    -- There are no more arguments than parameters, so one is declared for this argument.
    have hi : i < target.params.length := by
      obtain ⟨hlt, _⟩ := List.getElem?_eq_some_iff.1 harg
      exact Nat.lt_of_lt_of_le hlt hmost
    obtain ⟨param, hparam⟩ : ∃ param, target.params[i]? = some param :=
      ⟨_, List.getElem?_eq_getElem hi⟩
    -- The argument was admitted before it was materialized.
    have hadmits := heach i param hparam
    rw [harg] at hadmits
    refine ⟨param, hparam, ?_⟩
    rcases hadmits with ⟨hoptional, habsent⟩ | htype
    · exact .inl ⟨hoptional, Wire.materialize_of_isAbsent habsent⟩
    · right
      intro path
      exact Validation.check_eq_ok_iff.2 (Schema.admits_materialize.2 htype)

/-- **What reaches a function is what was declared.**  Under either null rule a value passes a check
exactly when it does after materializing; and whatever a dispatch calls a function with is as it was
declared of the function that is registered under the names of the request. -/
theorem passed_as_declared :
    (∀ allowNull schema v path,
      Validation.check allowNull schema v path = .ok () ↔
        Validation.check allowNull schema (Wire.materialize v) path = .ok ()) ∧
    ∀ (table : Table) (config : Config) (id : CallId) (context : Value) (incoming : Incoming)
      (a : Ambient) (ns function : Text) (passed : List Value),
      (Activity.invocations
        ((handle (.built table) config id context incoming).evaluate a).trace).head? =
          some (ns, function, passed) →
      ∃ r target, incoming.Asks context r ∧ r.ns = ns ∧ r.function = function ∧
        table.Holds ns function target ∧
        AsDeclared config.allowNull target (Wire.decodeArgs r.args) passed := by
  constructor
  · intro allowNull schema v path
    rw [Validation.check_eq_ok_iff, Validation.check_eq_ok_iff, Schema.admits_materialize]
  · intro table config id context incoming a ns function passed h
    obtain ⟨r, target, hasks, hresolve, hcheck, hcall⟩ := of_head?_invocations h
    obtain ⟨rfl, rfl, rfl⟩ : ns = r.ns ∧ function = r.function ∧ passed = callArgs r := by
      simpa using hcall
    exact ⟨r, target, hasks, rfl, rfl, holds_of_resolve_eq_ok hresolve, asDeclared hcheck⟩

/-- Undefined in a list and before the last argument is passed on as null; behind the last argument
it is left out. -/
theorem passed_as_declared_spy :
    let params : List Param := [⟨.text "tags".text, .text "string[]".text, .bool false⟩,
      ⟨.text "note".text, .text "number".text, .bool true⟩,
      ⟨.text "flag".text, .text "boolean".text, .bool false⟩,
      ⟨.text "more".text, .text "string".text, .bool true⟩]
    let table := (Builder.run [.register "m".text "spy".text (.function Sample.spy)
      (params.map .param) false]).table
    ∃ target, table.Holds "m".text "spy".text target ∧
      AsDeclared true target
        [.list [.text "a".text, .undefined], .undefined, .bool true, .undefined]
        [.list [.text "a".text, .null], .null, .bool true] := by
  intro params table
  have hcall : (Activity.invocations ((handle (.built table) .default .outside .null
      (.request ⟨"m".text, "spy".text,
        [.list [.text "a".text, .text Wire.placeholder], .text Wire.placeholder, .bool true,
          .text Wire.placeholder], .null⟩)).evaluate .outside).trace).head? =
        some ("m".text, "spy".text, [.list [.text "a".text, .null], .null, .bool true]) := rfl
  -- The function is called with these very arguments, so the theorem speaks of them.
  obtain ⟨r, target, hasks, _, _, hholds, hdeclared⟩ :=
    passed_as_declared.2 _ _ _ _ _ _ _ _ _ hcall
  cases hasks
  exact ⟨target, hholds, hdeclared⟩

end Dispatch

end RpcContract
