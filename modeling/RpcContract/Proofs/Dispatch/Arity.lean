import RpcContract.Proofs.Dispatch.Outcome
import RpcContract.Proofs.Wire.Trimming
import RpcContract.Sample.Probes

/-!
# How many arguments a function is called with

The arguments of a request are counted as they are decoded, and there are as many as the function
asks for.  The call itself gets them without the undefined ones at their end.  So a function is
never called with more arguments than it has parameters, and with fewer than it requires only where
the request sent undefined for a required parameter and for everything behind it.  This holds of
whatever a registry is made of.
-/

namespace RpcContract

namespace Validation

variable {allowNull : AllowNull} {params : List Param} {args : List Value}

/-! ## What the check of arguments lets through -/

theorem length_of_checkArgs (h : checkArgs allowNull params args = .ok ()) :
    Param.least params ≤ args.length ∧ args.length ≤ Param.most params := by
  unfold checkArgs at h
  split at h
  · cases h
  · rename_i hcount
    unfold checkCount at hcount
    split at hcount
    · assumption
    · cases hcount

theorem checkEachArg_of_checkArgs (h : checkArgs allowNull params args = .ok ()) :
    checkEachArg allowNull params args = .ok () := by
  unfold checkArgs at h
  split at h
  · cases h
  · exact h

/-- Something is given for a required parameter, and it passes the check of its type. -/
theorem given_of_checkEachArg (h : checkEachArg allowNull params args = .ok ()) {i : Nat}
    {param : Param} (hparam : params[i]? = some param) (hrequired : param.optional = false) :
    ∃ arg, args[i]? = some arg ∧ check allowNull param.type arg (.root param.name) = .ok () := by
  -- On the parameters beside the arguments: a required one does not pass without an argument.
  induction params generalizing args i with
  | nil => simp at hparam
  | cons first rest ih =>
    cases args with
    | nil =>
      rw [checkEachArg] at h
      split at h
      · rename_i hoptional
        cases i with
        | zero =>
          obtain rfl : first = param := by simpa using hparam
          rw [hrequired] at hoptional
          exact Bool.noConfusion hoptional
        | succ i => simpa using ih h (by simpa using hparam)
      · cases h
    | cons arg tail =>
      -- Either way the check goes on with the parameters behind the first.
      have hrest : checkEachArg allowNull rest tail = .ok () := by
        rw [checkEachArg] at h
        split at h
        · exact h
        · split at h
          · cases h
          · exact h
      cases i with
      | succ i => simpa using ih hrest (by simpa using hparam)
      | zero =>
        obtain rfl : first = param := by simpa using hparam
        rw [checkEachArg, hrequired] at h
        simp only [Bool.false_and, Bool.false_eq_true, if_false] at h
        refine ⟨arg, rfl, ?_⟩
        split at h
        · cases h
        · assumption

/-- Undefined passes where absent values may, or where anything may. -/
theorem of_check_undefined {schema : Schema} {path : Path}
    (h : check allowNull schema .undefined path = .ok ()) :
    allowNull = true ∨ schema = .any := by
  cases allowNull with
  | true => exact .inl rfl
  | false =>
    right
    cases schema with
    | object form fields => simp [check, Value.isAbsent, mismatch] at h
    | raw v => simp [check, Value.isAbsent, mismatch] at h
    | text t =>
      -- With absent values refused only a text without brackets that says `any` is left.
      have htext := arrayText_arrayParts t
      rw [check] at h
      cases hdepth : (arrayParts t).2 with
      | succ depth => simp [hdepth, checkArray, Value.isAbsent, mismatch] at h
      | zero =>
        rw [hdepth] at h htext
        have hbase : (arrayParts t).1 = Schema.anyText := by
          simpa [checkArray, Value.isAbsent, mismatch] using h
        rw [hbase] at htext
        exact congrArg Schema.text htext.symm

end Validation

/-- There are no more required parameters than positions that they stand at. -/
theorem Param.least_le {params : List Param} {n : Nat}
    (h : ∀ (i : Nat) (param : Param), params[i]? = some param → param.optional = false → i < n) :
    Param.least params ≤ n := by
  -- On the parameters; behind the first all positions are one less.
  induction params generalizing n with
  | nil => exact Nat.zero_le n
  | cons param rest ih =>
    have hrest : Param.least rest ≤ n - 1 := by
      refine ih fun i other hother hrequired => ?_
      have hi := h (i + 1) other (by simpa using hother) hrequired
      omega
    simp only [Param.least, List.countP_cons] at hrest ⊢
    split
    · rename_i hrequired
      have hpos := h 0 param rfl (by simpa using hrequired)
      omega
    · omega

namespace Dispatch

variable {table : Table} {config : Config} {id : CallId} {context : Value} {incoming : Incoming}
  {a : Ambient}

/-! ## The call that a dispatch makes -/

/-- A request is accepted when its function is found and its decoded arguments pass the check. -/
theorem accepted_of_accept_eq_ok {registry : Registry} {r : Request} {accepted : Accepted}
    (h : accept registry config r = .ok accepted) :
    registry.resolve r.ns r.function = .ok accepted.target ∧
      accepted.args = Wire.decodeArgs r.args ∧
      Validation.checkArgs config.allowNull accepted.target.params (Wire.decodeArgs r.args)
        = .ok () := by
  cases hresolve : registry.resolve r.ns r.function with
  | error failure => simp [accept, hresolve] at h
  | ok target =>
    simp only [accept, hresolve] at h
    split at h
    · cases h
    · rename_i hcheck
      cases h
      exact ⟨rfl, rfl, hcheck⟩

/-- What is found in a table is registered there. -/
theorem holds_of_resolve_eq_ok {ns function : Text} {target : Registered}
    (h : (Registry.built table).resolve ns function = .ok target) :
    table.Holds ns function target := by
  cases hns : Assoc.find? ns table with
  | none => simp [Registry.resolve, Registry.namespaceAt, hns] at h
  | some functions =>
    refine ⟨functions, hns, ?_⟩
    cases hfunction : Assoc.find? function functions with
    | none => simp [Registry.resolve, Registry.namespaceAt, Namespace.find, hns, hfunction] at h
    | some found =>
      simpa [Registry.resolve, Registry.namespaceAt, Namespace.find, hns, hfunction] using h

/-- What is not accepted is not called. -/
theorem invocations_of_accept_eq_error {registry : Registry} {r : Request} {failure : Failure}
    (hasks : incoming.Asks context r) (h : accept registry config r = .error failure) :
    Activity.invocations ((handle registry config id context incoming).evaluate a).trace = [] := by
  simp only [handle, Incoming.toRequest_eq_ok_iff.2 hasks, serve, h]
  split <;> rfl

/-- The first call of a trace is the one that the dispatch makes. -/
theorem of_head?_invocations {registry : Registry} {call : Text × Text × List Value}
    (h : (Activity.invocations
      ((handle registry config id context incoming).evaluate a).trace).head? = some call) :
    ∃ r target, incoming.Asks context r ∧ registry.resolve r.ns r.function = .ok target ∧
      Validation.checkArgs config.allowNull target.params (Wire.decodeArgs r.args) = .ok () ∧
      call = (r.ns, r.function, callArgs r) := by
  by_cases hasks : ∃ r, incoming.Asks context r
  · obtain ⟨r, hasks⟩ := hasks
    cases haccept : accept registry config r with
    | error failure =>
      rw [invocations_of_accept_eq_error hasks haccept] at h
      exact absurd h (by simp)
    | ok accepted =>
      obtain ⟨hresolve, hargs, hcheck⟩ := accepted_of_accept_eq_ok haccept
      obtain ⟨target, args⟩ := accepted
      obtain rfl : args = Wire.decodeArgs r.args := hargs
      refine ⟨r, target, hasks, hresolve, hcheck, ?_⟩
      -- Nothing is called in front of the call of the dispatch.
      have hserves : Serves config id a r target
          ((handle registry config id context incoming).evaluate a) :=
        serves_of_accept_eq_ok hasks haccept
      rw [hserves.invocations, List.head?_cons, Option.some.injEq] at h
      exact h.symm
  · obtain ⟨report, hrefused⟩ := refuses_of_malformed registry hasks
    rw [hrefused.invocations] at h
    exact absurd h (by simp)

/-- How many arguments a request brings, and which and how many of them its function is called
with. -/
structure CallsWithin (config : Config) (target : Registered) (args passed : List Value) :
    Prop where
  passed_eq : passed = Wire.materializeArgs args
  least_le_given : target.least ≤ args.length
  given_le_most : args.length ≤ target.most
  passed_le_most : passed.length ≤ target.most
  /-- What is not passed on was undefined and at the end. -/
  undefined_behind : ∀ i v, passed.length ≤ i → args[i]? = some v → v = .undefined
  /-- Too few are passed on only where undefined was given for a required parameter, which passes
  where absent values may or where the parameter may be anything. -/
  least_le_passed : target.least ≤ passed.length ∨
    ∃ i param, target.params[i]? = some param ∧ param.optional = false ∧ passed.length ≤ i ∧
      args[i]? = some .undefined ∧ (config.allowNull = true ∨ param.type = .any)

theorem callsWithin {target : Registered} {args : List Value}
    (h : Validation.checkArgs config.allowNull target.params args = .ok ()) :
    CallsWithin config target args (Wire.materializeArgs args) := by
  obtain ⟨hleast, hmost⟩ := Validation.length_of_checkArgs h
  have heach := Validation.checkEachArg_of_checkArgs h
  refine ⟨rfl, hleast, hmost, Nat.le_trans (Wire.length_materializeArgs_le args) hmost,
    fun i v hi hv => Wire.eq_undefined_of_length_le hi hv, ?_⟩
  -- Either some required parameter has no argument passed on, or they all have.
  by_cases hmissing : ∃ (i : Nat) (param : Param), target.params[i]? = some param ∧
      param.optional = false ∧ (Wire.materializeArgs args).length ≤ i
  · obtain ⟨i, param, hparam, hrequired, hi⟩ := hmissing
    right
    -- Something was given for it, which is not passed on.
    obtain ⟨arg, harg, hcheck⟩ := Validation.given_of_checkEachArg heach hparam hrequired
    obtain rfl := Wire.eq_undefined_of_length_le hi harg
    exact ⟨i, param, hparam, hrequired, hi, harg, Validation.of_check_undefined hcheck⟩
  -- Every required parameter stands in front of the end of what is passed on.
  · left
    refine Param.least_le fun i param hparam hrequired => Nat.lt_of_not_le fun hi => ?_
    exact hmissing ⟨i, param, hparam, hrequired, hi⟩

/-- **How many arguments a function is called with.**  Whatever the registry, a dispatch calls the
function that is found under the names of the request, with no more arguments than it has parameters,
and with no fewer than it requires unless the request sent undefined for a required parameter and for
all behind it. -/
theorem arity_of_call (registry : Registry) (config : Config) (id : CallId) (context : Value)
    (incoming : Incoming) (a : Ambient) {ns function : Text} {passed : List Value}
    (h : (Activity.invocations
      ((handle registry config id context incoming).evaluate a).trace).head? =
        some (ns, function, passed)) :
    ∃ r target, incoming.Asks context r ∧ r.ns = ns ∧ r.function = function ∧
      registry.resolve ns function = .ok target ∧
      (∀ table, registry = .built table → table.Holds ns function target) ∧
      CallsWithin config target (Wire.decodeArgs r.args) passed := by
  obtain ⟨r, target, hasks, hresolve, hcheck, hcall⟩ := of_head?_invocations h
  obtain ⟨rfl, rfl, rfl⟩ : ns = r.ns ∧ function = r.function ∧ passed = callArgs r := by
    simpa using hcall
  refine ⟨r, target, hasks, rfl, rfl, hresolve, ?_, callsWithin hcheck⟩
  rintro table rfl
  exact holds_of_resolve_eq_ok hresolve

/-- Undefined for a required parameter in front of another argument is passed on, as null; behind the
last argument it is not, and the function is called with fewer arguments than it requires. -/
theorem arity_of_call_two :
    let params : List Param := [⟨.text "first".text, .text "string".text, .bool false⟩,
      ⟨.text "second".text, .text "string".text, .bool false⟩]
    let table := (Builder.run [.register "m".text "two".text (.function Sample.two)
      (params.map .param) false]).table
    (∃ target, table.Holds "m".text "two".text target ∧
      CallsWithin .default target [.undefined, .text "b".text] [.null, .text "b".text]) ∧
    ∃ target, table.Holds "m".text "two".text target ∧
      CallsWithin .default target [.text "a".text, .undefined] [.text "a".text] := by
  intro params table
  constructor
  · have hcall : (Activity.invocations ((handle (.built table) .default .outside .null
        (.request ⟨"m".text, "two".text, [.text Wire.placeholder, .text "b".text], .null⟩)).evaluate
          .outside).trace).head? = some ("m".text, "two".text, [.null, .text "b".text]) := rfl
    obtain ⟨r, target, hasks, _, _, _, hholds, hwithin⟩ := arity_of_call _ _ _ _ _ _ hcall
    cases hasks
    exact ⟨target, hholds table rfl, hwithin⟩
  · have hcall : (Activity.invocations ((handle (.built table) .default .outside .null
        (.request ⟨"m".text, "two".text, [.text "a".text, .text Wire.placeholder], .null⟩)).evaluate
          .outside).trace).head? = some ("m".text, "two".text, [.text "a".text]) := rfl
    obtain ⟨r, target, hasks, _, _, _, hholds, hwithin⟩ := arity_of_call _ _ _ _ _ _ hcall
    cases hasks
    exact ⟨target, hholds table rfl, hwithin⟩

/-- A function that requires two arguments is called with one. -/
theorem call_below_least :
    let params : List Param := [⟨.text "first".text, .text "string".text, .bool false⟩,
      ⟨.text "second".text, .text "string".text, .bool false⟩]
    let table := (Builder.run [.register "m".text "two".text (.function Sample.two)
      (params.map .param) false]).table
    let request : Request :=
      ⟨"m".text, "two".text, [.text "a".text, .text Wire.placeholder], .null⟩
    table.Holds "m".text "two".text ⟨Sample.two, params⟩ ∧
    (Activity.invocations ((handle (.built table) .default .outside .null
      (.request request)).evaluate .outside).trace).head? =
        some ("m".text, "two".text, [.text "a".text]) ∧
    Registered.least ⟨Sample.two, params⟩ = 2 :=
  ⟨⟨_, rfl, rfl⟩, rfl, rfl⟩

end Dispatch

end RpcContract
