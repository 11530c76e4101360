import RpcContract.Dispatch
import RpcContract.Proofs.Validation.Membership
import RpcContract.Response

/-!
# How a dispatch ends

Every dispatch over a table of registered functions ends in exactly one way, and which one it is
can be told from what arrives: it spells out no request, or the namespace is unknown, or the
function is, or its arguments do not pass the check, or the function is called, once, and its own
end decides.  A failure that the caller is to blame for means that no function was called.
-/

namespace RpcContract

/-! ## What arrives -/

/-- The members of a wire body spell a request out: each of the two names stands under the first of
its two spellings that is there, and the arguments are a list or left out. -/
structure Request.SpelledBy (entries : Assoc Value) (context : Value) (r : Request) : Prop where
  ns : (Assoc.find? nsAlias entries).or (Assoc.find? nsField entries) = some (.text r.ns)
  function : (Assoc.find? functionAlias entries).or (Assoc.find? functionField entries)
    = some (.text r.function)
  args : (Assoc.find? argsField entries).getD (.list []) = .list r.args
  context : r.context = context

/-- What arrives asks for a request: the host made it, or a wire body spells it out. -/
inductive Incoming.Asks (context : Value) : Incoming → Request → Prop where
  | request (r : Request) : Asks context (.request r) r
  | body {entries : Assoc Value} {r : Request} (h : r.SpelledBy entries context) :
      Asks context (.body (.record entries)) r

/-- A function is registered under a name in a namespace. -/
def Table.Holds (table : Table) (ns function : Text) (target : Registered) : Prop :=
  ∃ functions, Assoc.find? ns table = some functions ∧
    Assoc.find? function functions = some target

/-- The types of all parameters of all functions have type texts for leaves. -/
def Table.IsTextual (table : Table) : Prop :=
  ∀ ns function target, table.Holds ns function target →
    ∀ param ∈ target.params, param.type.isTextual = true

/-! ## What happens -/

/-- What a function does by itself when it is called.  What a call yields to wait for is run to its
end; of a call in two parts the second is run behind the first, with what that returned, unless the
first failed.  In a thread nobody waits for the second part, and the call returns what stands for
it. -/
def Behaviour.run (inThread : Bool) (args : List Value) (a : Ambient) : Behaviour → Run Activity
  | .immediate body | .awaitable body => (body args).evaluate a
  | .deferred start finish =>
    let first := (start args).evaluate a
    match first.outcome with
    | .raised _ => first
    | .returned v =>
      let rest := (finish args v).evaluate a
      if inThread then
        ⟨first.trace, .returned (.host ⟨"coroutine".text, "<coroutine>".text⟩)⟩
      else
        ⟨first.trace ++ rest.trace, rest.outcome⟩

/-- The calls of registered functions in a trace. -/
def Activity.invocations (trace : List (Event Activity)) : List (Text × Text × List Value) :=
  trace.filterMap fun
    | (_, .invoked ns function args) => some (ns, function, args)
    | _ => none

namespace Dispatch

/-- What the function of a request is called with. -/
def callArgs (r : Request) : List Value := Wire.materializeArgs (Wire.decodeArgs r.args)

/-- The surroundings in which the function of a request is called. -/
def inside (a : Ambient) (id : CallId) (r : Request) : Ambient :=
  (a.set (.callId id)).set (.context r.context)

/-- The run of the function of a request by itself. -/
def step (config : Config) (id : CallId) (a : Ambient) (r : Request) (target : Registered) :
    Run Activity :=
  target.fn.behaviour.run config.inThread (callArgs r) (inside a id r)

/-- A run that calls the function of a request once, before and after which no function is called,
and that ends as the function does: with what it returned as the one member of an object, or with the
failure of the invocation. -/
structure Serves (config : Config) (id : CallId) (a : Ambient) (r : Request) (target : Registered)
    (run : Run Activity) : Prop where
  trace : ∃ before after,
    run.trace = before ++ (inside a id r, .invoked r.ns r.function (callArgs r))
      :: (step config id a r target).trace ++ after ∧
    Activity.invocations before = [] ∧ Activity.invocations after = []
  returned : ∀ v, (step config id a r target).outcome = .returned v →
    run.outcome = .returned (.record [("result".text, v)]) ∧
    Response.success (.record [("result".text, v)]) = .ok ⟨200, .record [("result".text, v)]⟩
  raised : ∀ failure, (step config id a r target).outcome = .raised failure →
    run.outcome = .raised (.invocation r.ns r.function failure) ∧
    (Failure.invocation r.ns r.function failure).message = failure.message ∧
    (Failure.invocation r.ns r.function failure).status = 500 ∧
    (Failure.invocation r.ns r.function failure).isClientError? = some false

/-- A run that calls no function and ends with a failure of a transport status, for which the caller
is to blame. -/
structure Refuses (failure : Failure) (status : Nat) (run : Run Activity) : Prop where
  outcome : run.outcome = .raised failure
  invocations : Activity.invocations run.trace = []
  status : failure.status = status
  blames : failure.isClientError? = some true

end Dispatch

/-! ## Reading requests -/

theorem Reading.zipWith_eq_ok_iff {α β γ : Type} {f : α → β → γ} {x : Reading α} {y : Reading β}
    {c : γ} : Reading.zipWith f x y = .ok c ↔ ∃ a b, x = .ok a ∧ y = .ok b ∧ f a b = c := by
  cases x <;> cases y <;> simp [Reading.zipWith]

theorem Form.text_eq_ok_iff {place : Location} {v : Value} {t : Text} :
    Form.text place v = .ok t ↔ v = .text t := by
  cases v <;> simp [Form.text, Reading.refuse]

theorem Form.anyList_eq_ok_iff {place : Location} {v : Value} {items : List Value} :
    Form.anyList place v = .ok items ↔ v = .list items := by
  cases v <;> simp [Form.anyList, Reading.refuse]

theorem Form.aliasedField_text_eq_ok_iff {name second : Text} {place : Location}
    {entries : Assoc Value} {t : Text} :
    Form.aliasedField Form.text name second place entries = .ok t ↔
      (Assoc.find? name entries).or (Assoc.find? second entries) = some (.text t) := by
  -- The spelling that is read is the one that is there, the first before the second.
  unfold Form.aliasedField Form.field Assoc.has
  cases hname : Assoc.find? name entries with
  | some v => simp [Form.text_eq_ok_iff]
  | none =>
    cases hsecond : Assoc.find? second entries with
    | some v => simp [Form.text_eq_ok_iff]
    | none => simp [Reading.refuse]

theorem Form.anyList_field_eq_ok_iff {name : Text} {place : Location} {entries : Assoc Value}
    {items : List Value} :
    Form.field Form.anyList (some []) name place entries = .ok items ↔
      (Assoc.find? name entries).getD (.list []) = .list items := by
  unfold Form.field
  cases Assoc.find? name entries with
  | some v => simp [Form.anyList_eq_ok_iff]
  | none => simp

/-- Whatever a body holds, the context that is read from it is the one that the host wrote there. -/
theorem Request.context_put (context : Value) (entries : Assoc Value) :
    Form.field Form.anything (some .null) contextField [] (Assoc.put contextField context entries)
      = .ok context := by
  simp [Form.field, Form.anything]

/-- The context that the host writes into a body stands in the way of no other field. -/
theorem Request.find?_put_context {name : Text} (hname : name ≠ contextField) (context : Value)
    (entries : Assoc Value) :
    Assoc.find? name (Assoc.put contextField context entries) = Assoc.find? name entries :=
  Assoc.find?_put_of_ne hname context entries

/-- A wire body is read as the request that it spells out. -/
theorem Request.ofMembers_eq_ok_iff {context : Value} {entries : Assoc Value} {r : Request} :
    Request.ofMembers context entries = .ok r ↔ r.SpelledBy entries context := by
  simp only [Request.ofMembers, Request.ofFields, Request.context_put, Reading.zipWith_eq_ok_iff,
    Form.aliasedField_text_eq_ok_iff, Form.anyList_field_eq_ok_iff]
  rw [find?_put_context (by decide), find?_put_context (by decide), find?_put_context (by decide),
    find?_put_context (by decide), find?_put_context (by decide)]
  constructor
  · rintro ⟨_, _, ⟨_, args, ⟨ns, function, hns, hfunction, rfl⟩, hitems, rfl⟩, hcontext, rfl⟩
    cases hcontext
    exact ⟨hns, hfunction, hitems, rfl⟩
  · intro h
    refine ⟨_, _, ⟨_, _, ⟨_, _, h.ns, h.function, rfl⟩, h.args, rfl⟩, rfl, ?_⟩
    -- The fields are those of the request, and the context is the host's.
    obtain ⟨ns, function, args, context'⟩ := r
    have hcontext : context' = context := h.context
    rw [hcontext]

/-- What arrives is read as the request that it asks for. -/
theorem Incoming.toRequest_eq_ok_iff {incoming : Incoming} {context : Value} {r : Request} :
    incoming.toRequest context = .ok r ↔ incoming.Asks context r := by
  constructor
  · intro h
    -- A request that the host made is taken as it is; of a body only objects are read.
    cases incoming with
    | request made =>
      obtain rfl : made = r := by simpa [Incoming.toRequest] using h
      exact .request made
    | body v =>
      cases v with
      | record entries =>
        cases hread : Request.ofMembers context entries with
        | error errors => simp [Incoming.toRequest, hread] at h
        | ok read =>
          obtain rfl : read = r := by simpa [Incoming.toRequest, hread] using h
          exact .body (Request.ofMembers_eq_ok_iff.1 hread)
      | _ => simp [Incoming.toRequest] at h
  · intro h
    cases h with
    | request => rfl
    | body h => simp [Incoming.toRequest, Request.ofMembers_eq_ok_iff.2 h]

/-- What asks for no request is malformed. -/
theorem Incoming.toRequest_eq_error {incoming : Incoming} {context : Value}
    (h : ¬ ∃ r, incoming.Asks context r) :
    ∃ report, incoming.toRequest context = .error (.requestFormat report) := by
  cases incoming with
  | request made => exact absurd ⟨made, .request made⟩ h
  | body v =>
    cases v with
    | record entries =>
      cases hread : Request.ofMembers context entries with
      | error errors => exact ⟨_, by simp only [Incoming.toRequest, hread]; rfl⟩
      | ok r => exact absurd ⟨r, .body (Request.ofMembers_eq_ok_iff.1 hread)⟩ h
    | _ => exact ⟨_, rfl⟩

/-! ## Looking up and checking -/

theorem Registry.resolve_of_holds {table : Table} {ns function : Text} {target : Registered}
    (h : table.Holds ns function target) :
    (Registry.built table).resolve ns function = .ok target := by
  obtain ⟨functions, hns, hfunction⟩ := h
  simp [Registry.resolve, Registry.namespaceAt, Namespace.find, hns, hfunction]

namespace Dispatch

variable {table : Table} {config : Config} {id : CallId} {context : Value} {incoming : Incoming}
  {a : Ambient} {r : Request} {target : Registered}

theorem accept_of_namespace_absent (config : Config) (hns : Assoc.find? r.ns table = none) :
    accept (.built table) config r = .error (.namespaceNotFound r.ns) := by
  simp [accept, Registry.resolve, Registry.namespaceAt, hns]

theorem accept_of_function_absent (config : Config) {functions : Assoc Registered}
    (hns : Assoc.find? r.ns table = some functions)
    (hfunction : Assoc.find? r.function functions = none) :
    accept (.built table) config r = .error (.functionNotFound r.ns r.function) := by
  simp [accept, Registry.resolve, Registry.namespaceAt, Namespace.find, hns, hfunction]

/-- Arguments that do not pass are reported for the call that they are of. -/
theorem accept_of_check_eq_error {registry : Registry} {rejection : Rejection}
    (hresolve : registry.resolve r.ns r.function = .ok target)
    (hcheck : Validation.checkArgs config.allowNull target.params (Wire.decodeArgs r.args)
      = .error rejection) :
    accept registry config r = .error (.ofRejection (some r.ns) (some r.function) rejection) := by
  simp only [accept, hresolve, hcheck]

/-- Where all types are textual the check has no other way to fail than with a violation, so what
does not pass is reported as a failure of the validation. -/
theorem accept_of_check_ne_ok (htextual : table.IsTextual)
    (hholds : table.Holds r.ns r.function target)
    (hcheck : Validation.checkArgs config.allowNull target.params (Wire.decodeArgs r.args)
      ≠ .ok ()) :
    ∃ report, accept (.built table) config r = .error (.validation report) := by
  -- The check decides what the types admit, so where it does not pass there is a violation.
  have hdecides := Validation.checkArgs_decides config.allowNull
    (htextual _ _ _ hholds) (Wire.decodeArgs r.args)
  rcases hdecides with ⟨_, hok⟩ | ⟨_, violation, herror⟩
  · -- The arguments are right, so the check would have passed.
    exact absurd hok hcheck
  · refine ⟨⟨.text violation.reason, some r.ns, some r.function, some violation.place⟩, ?_⟩
    simp [accept, Registry.resolve_of_holds hholds, herror, Failure.ofRejection]

theorem accept_of_check_eq_ok (hholds : table.Holds r.ns r.function target)
    (hcheck : Validation.checkArgs config.allowNull target.params (Wire.decodeArgs r.args)
      = .ok ()) :
    accept (.built table) config r = .ok ⟨target, Wire.decodeArgs r.args⟩ := by
  simp [accept, Registry.resolve_of_holds hholds, hcheck]

/-! ## The run of a dispatch -/

/-- The record that a call leaves when its function has ended. -/
def closing (r : Request) : Outcome → Activity
  | .returned _ => completed r
  | .raised failure => failed r failure

/-- How a call ends when its function has ended. -/
def ending (r : Request) : Outcome → Outcome
  | .returned v => .returned (.record [("result".text, v)])
  | .raised failure => .raised (.invocation r.ns r.function failure)

/-- A call does what its function does by itself. -/
theorem evaluate_call (inThread : Bool) (f : Function) (args : List Value) (a : Ambient) :
    (call inThread f args).evaluate a = f.behaviour.run inThread args a := by
  cases hbehaviour : f.behaviour with
  | immediate body =>
    -- The scope of a thread sets nothing.
    cases inThread <;>
      simp [call, hbehaviour, Behaviour.run, Program.evaluate, Ambient.enter]
  | awaitable body => simp [call, hbehaviour, Behaviour.run]
  | deferred start finish =>
    cases hfirst : (start args).evaluate a with
    | mk trace outcome =>
      cases outcome with
      | returned v =>
        cases inThread <;>
          simp [call, hbehaviour, Behaviour.run, hfirst, Program.andThen, Program.evaluate,
            Ambient.enter, Program.pure, unawaited]
      | raised failure =>
        -- There is no second part, whether or not somebody would wait for it.
        simp [call, hbehaviour, Behaviour.run, hfirst, Program.andThen, Program.evaluate,
          Ambient.enter, Program.fail]

theorem invoke_eq (config : Config) (r : Request) (accepted : Accepted) :
    invoke config r accepted =
      .emit (invoking r accepted.args.length) (.scope (some (.context r.context))
        (.emit (.invoked r.ns r.function (Wire.materializeArgs accepted.args))
          (call config.inThread accepted.target.fn (Wire.materializeArgs accepted.args)))
        fun outcome => .emit (closing r outcome) (.finish (ending r outcome))) := by
  rw [invoke]
  congr 2
  funext outcome
  cases outcome <;> rfl

/-- What asks for no request is refused as malformed. -/
theorem refuses_of_malformed (registry : Registry) (h : ¬ ∃ r, incoming.Asks context r) :
    ∃ report, Refuses (.requestFormat report) 400
      ((handle registry config id context incoming).evaluate a) := by
  obtain ⟨report, hreport⟩ := Incoming.toRequest_eq_error h
  refine ⟨report, ?_⟩
  -- The failure is passed on as it is, out of the scope of the call.
  simp only [handle, hreport]
  exact ⟨rfl, rfl, rfl, rfl⟩

/-- A request that is not accepted, for a reason that the caller is to blame for, is refused. -/
theorem refuses_of_accept_eq_error {registry : Registry} {failure : Failure}
    (hasks : incoming.Asks context r) (h : accept registry config r = .error failure)
    (hown : failure.isOwn = true) (hblames : failure.isClientError? = some true) :
    Refuses failure failure.status
      ((handle registry config id context incoming).evaluate a) := by
  simp only [handle, Incoming.toRequest_eq_ok_iff.2 hasks, serve, h, if_pos hown]
  exact ⟨rfl, rfl, rfl, hblames⟩

/-- A request that is accepted is served: its function is called in between the records. -/
theorem serves_of_accept_eq_ok {registry : Registry}
    (hasks : incoming.Asks context r)
    (h : accept registry config r = .ok ⟨target, Wire.decodeArgs r.args⟩) :
    Serves config id a r target ((handle registry config id context incoming).evaluate a) := by
  simp only [handle, Incoming.toRequest_eq_ok_iff.2 hasks, serve, h, invoke, Program.evaluate,
    Ambient.enter, evaluate_call]
  have hstep : target.fn.behaviour.run config.inThread
      (Wire.materializeArgs (Wire.decodeArgs r.args))
        ((a.set (.callId id)).set (.context r.context)) = step config id a r target := rfl
  rw [hstep]
  refine ⟨?_, ?_, ?_⟩
  · -- The two records are the only events that are not of the function; which of them stands behind
    -- it depends on how it ends.
    cases (step config id a r target).outcome with
    | returned v =>
      refine ⟨[(a.set (.callId id), invoking r (Wire.decodeArgs r.args).length)],
        [(a.set (.callId id), completed r)], ?_, rfl, rfl⟩
      simp [Program.evaluate, Program.pure, callArgs, inside]
    | raised failure =>
      refine ⟨[(a.set (.callId id), invoking r (Wire.decodeArgs r.args).length)],
        [(a.set (.callId id), failed r failure)], ?_, rfl, rfl⟩
      simp [Program.evaluate, Program.fail, callArgs, inside]
  · intro v hv
    rw [hv]
    exact ⟨rfl, rfl⟩
  · intro failure hfailure
    rw [hfailure]
    exact ⟨rfl, rfl, rfl, rfl⟩

/-- The calls of a run that serves a request: that of its function, and those that this makes. -/
theorem Serves.invocations {run : Run Activity} (h : Serves config id a r target run) :
    Activity.invocations run.trace =
      (r.ns, r.function, callArgs r) :: Activity.invocations (step config id a r target).trace := by
  -- Calls in front of and behind the trace of the function are excluded by what serving means.
  obtain ⟨before, after, htrace, hbefore, hafter⟩ := h.trace
  rw [htrace]
  simp only [Activity.invocations, List.filterMap_append, List.filterMap_cons] at hbefore hafter ⊢
  rw [hbefore, hafter, List.nil_append, List.append_nil]

/-- A run that serves a request ends with an envelope or with the failure of the invocation. -/
theorem Serves.outcome_cases {run : Run Activity} (h : Serves config id a r target run) :
    (∃ v, run.outcome = .returned v) ∨
      ∃ failure, run.outcome = .raised (.invocation r.ns r.function failure) := by
  cases houtcome : (step config id a r target).outcome with
  | returned v => exact .inl ⟨_, (h.returned v houtcome).1⟩
  | raised failure => exact .inr ⟨failure, (h.raised failure houtcome).1⟩

theorem Serves.outcome_ne {run : Run Activity} {failure : Failure}
    (h : Serves config id a r target run)
    (hother : ∀ ns function cause, failure ≠ .invocation ns function cause) :
    run.outcome ≠ .raised failure := by
  -- Serving ends with an envelope or an invocation, and `failure` is neither.
  intro hend
  rcases h.outcome_cases with ⟨v, houtcome⟩ | ⟨cause, houtcome⟩
  · simp [houtcome] at hend
  · rw [houtcome, Outcome.raised.injEq] at hend
    exact hother _ _ _ hend.symm

/-- Everything that can become of what arrives, in the order in which it is found out. -/
theorem handle_cases (htextual : table.IsTextual) (config : Config) (id : CallId) (context : Value)
    (incoming : Incoming) (a : Ambient) {run : Run Activity}
    (hrun : run = (handle (.built table) config id context incoming).evaluate a) :
    (¬ (∃ r, incoming.Asks context r) ∧ ∃ report, Refuses (.requestFormat report) 400 run) ∨
    (∃ r, incoming.Asks context r ∧ Assoc.find? r.ns table = none ∧
      Refuses (.namespaceNotFound r.ns) 404 run) ∨
    (∃ r functions, incoming.Asks context r ∧ Assoc.find? r.ns table = some functions ∧
      Assoc.find? r.function functions = none ∧
      Refuses (.functionNotFound r.ns r.function) 404 run) ∨
    (∃ r target, incoming.Asks context r ∧ table.Holds r.ns r.function target ∧
      Validation.checkArgs config.allowNull target.params (Wire.decodeArgs r.args) ≠ .ok () ∧
      ∃ report, Refuses (.validation report) 400 run) ∨
    (∃ r target, incoming.Asks context r ∧ table.Holds r.ns r.function target ∧
      Serves config id a r target run) := by
  subst hrun
  -- The cases are those of the dispatch itself, in its order.
  by_cases hasks : ∃ r, incoming.Asks context r
  · obtain ⟨r, hasks⟩ := hasks
    right
    cases hns : Assoc.find? r.ns table with
    | none =>
      left
      exact ⟨r, hasks, hns, refuses_of_accept_eq_error hasks
        (accept_of_namespace_absent config hns) rfl rfl⟩
    | some functions =>
      right
      cases hfunction : Assoc.find? r.function functions with
      | none =>
        left
        exact ⟨r, functions, hasks, hns, hfunction, refuses_of_accept_eq_error hasks
          (accept_of_function_absent config hns hfunction) rfl rfl⟩
      | some target =>
        right
        have hholds : table.Holds r.ns r.function target := ⟨functions, hns, hfunction⟩
        by_cases hcheck : Validation.checkArgs config.allowNull target.params
            (Wire.decodeArgs r.args) = .ok ()
        · right
          exact ⟨r, target, hasks, hholds,
            serves_of_accept_eq_ok hasks (accept_of_check_eq_ok hholds hcheck)⟩
        · left
          obtain ⟨report, haccept⟩ := accept_of_check_ne_ok htextual hholds hcheck
          exact ⟨r, target, hasks, hholds, hcheck, report,
            refuses_of_accept_eq_error hasks haccept rfl rfl⟩
  · left
    exact ⟨hasks, refuses_of_malformed _ hasks⟩

/-! ## What each end says -/

section Ends

variable (htextual : table.IsTextual) {run : Run Activity}
  (hrun : run = (handle (.built table) config id context incoming).evaluate a)

include htextual hrun

theorem validation_iff : (∃ report, run.outcome = .raised (.validation report)) ↔
    ∃ r target, incoming.Asks context r ∧ table.Holds r.ns r.function target ∧
      Validation.checkArgs config.allowNull target.params (Wire.decodeArgs r.args) ≠ .ok () := by
  constructor
  · rintro ⟨report, hend⟩
    rcases handle_cases htextual config id context incoming a hrun with
      ⟨_, _, h⟩ | ⟨_, _, _, h⟩ | ⟨_, _, _, _, _, h⟩ | ⟨r, target, hasks, hholds, hcheck, _⟩ |
      ⟨_, _, _, _, h⟩
    · simp [h.outcome] at hend
    · simp [h.outcome] at hend
    · simp [h.outcome] at hend
    · exact ⟨r, target, hasks, hholds, hcheck⟩
    · exact absurd hend (h.outcome_ne fun _ _ _ => Failure.noConfusion)
  · rintro ⟨r, target, hasks, hholds, hcheck⟩
    subst hrun
    obtain ⟨report, haccept⟩ := accept_of_check_ne_ok htextual hholds hcheck
    exact ⟨report, (refuses_of_accept_eq_error hasks haccept rfl rfl).outcome⟩

end Ends

end Dispatch

end RpcContract
