import RpcContract.Proofs.Dispatch.Arity

/-!
# Running functions in a thread

A function that runs at once may run in a thread of its own, in a copy of its surroundings.  A
dispatch then does what it would do otherwise, with one exception: what a function only yields to
wait for is waited for outside threads alone.
-/

namespace RpcContract

/-- A call of the function does a first part at once and then returns; what that yields to wait for
does the rest. -/
inductive Function.Leaves (f : Function) (args : List Value) (a : Ambient) :
    Run Activity → Run Activity → Prop
  | mk {start : List Value → Program Activity} {finish : List Value → Value → Program Activity}
      {v : Value} (hbehaviour : f.behaviour = .deferred start finish)
      (hstart : ((start args).evaluate a).outcome = .returned v) :
      Leaves f args a ((start args).evaluate a) ((finish args v).evaluate a)

namespace Dispatch

/-- The run of a call, around that of its function. -/
def around (id : CallId) (a : Ambient) (r : Request) (own : Run Activity) : Run Activity where
  trace := (a.set (.callId id), invoking r (Wire.decodeArgs r.args).length)
    :: (inside a id r, .invoked r.ns r.function (callArgs r))
    :: (own.trace ++ [(a.set (.callId id), closing r own.outcome)])
  outcome := ending r own.outcome

variable {registry : Registry} {config : Config} {allowNull : Bool} {id : CallId} {context : Value}
  {incoming : Incoming} {a : Ambient} {r : Request} {accepted : Accepted} {f : Function}
  {args : List Value} {first rest : Run Activity}

/-! ## Calling a function -/

theorem run_inThread_of_leaves (h : f.Leaves args a first rest) :
    f.behaviour.run true args a = ⟨first.trace, .returned unawaited⟩ := by
  obtain ⟨hbehaviour, hstart⟩ := h
  simp [Behaviour.run, hbehaviour, hstart, unawaited]

theorem run_inline_of_leaves (h : f.Leaves args a first rest) :
    f.behaviour.run false args a = ⟨first.trace ++ rest.trace, rest.outcome⟩ := by
  obtain ⟨hbehaviour, hstart⟩ := h
  simp [Behaviour.run, hbehaviour, hstart]

/-- Whatever does not leave anything to wait for does the same in a thread. -/
theorem run_inThread_of_not_leaves (h : ∀ first rest, ¬ f.Leaves args a first rest) :
    f.behaviour.run true args a = f.behaviour.run false args a := by
  cases hbehaviour : f.behaviour with
  | immediate body => rfl
  | awaitable body => rfl
  | deferred start finish =>
    cases hstart : ((start args).evaluate a).outcome with
    | returned v => exact absurd (.mk hbehaviour hstart) (h _ _)
    | raised failure =>
      -- The first part failed, so there is nothing to wait for.
      simp [Behaviour.run, hstart]

/-! ## Dispatch around the call -/

theorem ending_injective (r : Request) : Function.Injective (ending r) := by
  intro o o' h
  cases o <;> cases o' <;> simp_all [ending]

theorem around_injective (id : CallId) (a : Ambient) (r : Request) :
    Function.Injective (around id a r) := by
  rintro ⟨trace, outcome⟩ ⟨trace', outcome'⟩ h
  obtain ⟨htrace, hending⟩ := Run.mk.inj h
  -- The own lines around the trace are the same once the outcomes are.
  obtain rfl : outcome = outcome' := ending_injective r hending
  obtain rfl : trace = trace' := by simpa using htrace
  rfl

theorem outcome_around_eq_iff {id : CallId} {a : Ambient} {r : Request} {own own' : Run Activity} :
    (around id a r own).outcome = (around id a r own').outcome ↔ own.outcome = own'.outcome :=
  (ending_injective r).eq_iff

theorem around_eq_iff (id : CallId) (a : Ambient) (r : Request) {trace : List (Event Activity)}
    {o : Outcome} :
    around id a r ⟨trace, o⟩ = around id a r ⟨trace ++ rest.trace, rest.outcome⟩ ↔
      rest = ⟨[], o⟩ := by
  -- Of both runs only what follows `trace` can differ.
  obtain ⟨later, o'⟩ := rest
  rw [(around_injective id a r).eq_iff]
  simp [eq_comm]

theorem handle_of_accept_eq_ok (hasks : incoming.Asks context r)
    (haccept : accept registry config r = .ok accepted) :
    (handle registry config id context incoming).evaluate a =
      around id a r (step config id a r accepted.target) := by
  obtain ⟨target, args⟩ := accepted
  obtain rfl : args = Wire.decodeArgs r.args := (accepted_of_accept_eq_ok haccept).2.1
  simp only [handle, Incoming.toRequest_eq_ok_iff.2 hasks, serve, haccept, invoke_eq,
    Program.evaluate, evaluate_call, Ambient.enter, List.append_nil, List.cons_append]
  rfl

/-- What is not accepted runs no function, so threads have no part in it. -/
theorem handle_of_not_accepted
    (h : ∀ r accepted, incoming.Asks context r →
      accept registry ⟨allowNull, false⟩ r ≠ .ok accepted) :
    handle registry ⟨allowNull, true⟩ id context incoming =
      handle registry ⟨allowNull, false⟩ id context incoming := by
  cases hrequest : incoming.toRequest context with
  | error failure => simp only [handle, hrequest]
  | ok r =>
    -- Threads have no part in whether a request is accepted.
    have hconfig : accept registry ⟨allowNull, true⟩ r = accept registry ⟨allowNull, false⟩ r := rfl
    cases haccept : accept registry ⟨allowNull, false⟩ r with
    | error failure => simp only [handle, hrequest, serve, hconfig, haccept]
    | ok accepted => exact absurd haccept (h r accepted (Incoming.toRequest_eq_ok_iff.1 hrequest))

/-- The call that a dispatch makes returns something to wait for: `first` is what it does until then,
and `rest` what is left. -/
structure Defers (registry : Registry) (allowNull : Bool) (id : CallId) (context : Value)
    (incoming : Incoming) (a : Ambient) (r : Request) (first rest : Run Activity) : Prop where
  asks : incoming.Asks context r
  leaves : ∃ accepted, accept registry ⟨allowNull, false⟩ r = .ok accepted ∧
    accepted.target.fn.Leaves (callArgs r) (inside a id r) first rest

theorem handle_of_defers (h : Defers registry allowNull id context incoming a r first rest) :
    (handle registry ⟨allowNull, true⟩ id context incoming).evaluate a =
        around id a r ⟨first.trace, .returned unawaited⟩ ∧
      (handle registry ⟨allowNull, false⟩ id context incoming).evaluate a =
        around id a r ⟨first.trace ++ rest.trace, rest.outcome⟩ := by
  obtain ⟨hasks, accepted, haccept, hleaves⟩ := h
  have hthread : accept registry ⟨allowNull, true⟩ r = .ok accepted := haccept
  constructor
  · rw [handle_of_accept_eq_ok hasks hthread, step, run_inThread_of_leaves hleaves]
  · rw [handle_of_accept_eq_ok hasks haccept, step, run_inline_of_leaves hleaves]

theorem handle_of_not_defers
    (h : ∀ r first rest, ¬ Defers registry allowNull id context incoming a r first rest) :
    (handle registry ⟨allowNull, true⟩ id context incoming).evaluate a =
      (handle registry ⟨allowNull, false⟩ id context incoming).evaluate a := by
  by_cases haccepted : ∃ r accepted, incoming.Asks context r ∧
      accept registry ⟨allowNull, false⟩ r = .ok accepted
  · obtain ⟨r, accepted, hasks, haccept⟩ := haccepted
    have hthread : accept registry ⟨allowNull, true⟩ r = .ok accepted := haccept
    rw [handle_of_accept_eq_ok hasks hthread, handle_of_accept_eq_ok hasks haccept, step, step,
      run_inThread_of_not_leaves]
    exact fun first rest hleaves => h r first rest ⟨hasks, accepted, haccept, hleaves⟩
  · rw [handle_of_not_accepted fun r accepted hasks haccept =>
      haccepted ⟨r, accepted, hasks, haccept⟩]

/-- **What running functions in a thread changes.**  For every registry, whatever it holds, a dispatch
does the same with and without threads, in the same surroundings and to the same end, unless the call
that it makes returns something to wait for.  Then a dispatch with threads ends at once with that
thing as its result, and without threads it goes on with what is left. -/
theorem handle_inThread (registry : Registry) (allowNull : Bool) (id : CallId) (context : Value)
    (incoming : Incoming) (a : Ambient) :
    let run (inThread : Bool) :=
      (handle registry ⟨allowNull, inThread⟩ id context incoming).evaluate a
    let Left := Defers registry allowNull id context incoming a
    (run true = run false ↔ ∀ r first rest, Left r first rest → rest = ⟨[], .returned unawaited⟩) ∧
    ((run true).outcome = (run false).outcome ↔
      ∀ r first rest, Left r first rest → rest.outcome = .returned unawaited) ∧
    ∀ r first rest, Left r first rest →
      run true = around id a r ⟨first.trace, .returned unawaited⟩ ∧
      run false = around id a r ⟨first.trace ++ rest.trace, rest.outcome⟩ := by
  intro run Left
  have hleft : ∀ r first rest, Left r first rest →
      run true = around id a r ⟨first.trace, .returned unawaited⟩ ∧
      run false = around id a r ⟨first.trace ++ rest.trace, rest.outcome⟩ :=
    fun r first rest h => handle_of_defers h
  -- Both runs are around what the function does, so they are compared by that alone.
  by_cases hsome : ∃ r first rest, Left r first rest
  · obtain ⟨r, first, rest, h⟩ := hsome
    refine ⟨⟨fun hsame r first rest h => ?_, fun hrest => ?_⟩,
      ⟨fun hsame r first rest h => ?_, fun hrest => ?_⟩, hleft⟩
    · obtain ⟨htrue, hfalse⟩ := hleft r first rest h
      exact (around_eq_iff id a r).1 (htrue.symm.trans (hsame.trans hfalse))
    · obtain ⟨htrue, hfalse⟩ := hleft r first rest h
      exact htrue.trans (((around_eq_iff id a r).2 (hrest r first rest h)).trans hfalse.symm)
    · obtain ⟨htrue, hfalse⟩ := hleft r first rest h
      rw [htrue, hfalse, outcome_around_eq_iff] at hsame
      exact hsame.symm
    · obtain ⟨htrue, hfalse⟩ := hleft r first rest h
      rw [htrue, hfalse, outcome_around_eq_iff]
      exact (hrest r first rest h).symm
  -- Nothing is left to wait for, and then both conditions hold of everything that is left.
  · have hnone : ∀ r first rest, ¬ Left r first rest := fun r first rest h =>
      hsome ⟨r, first, rest, h⟩
    have hsame : run true = run false := handle_of_not_defers hnone
    exact ⟨iff_of_true hsame fun r first rest h => absurd h (hnone r first rest),
      iff_of_true (congrArg Run.outcome hsame) fun r first rest h => absurd h (hnone r first rest),
      hleft⟩

/-- A plain function that yields something to wait for: outside threads its value is the result, in a
thread the thing itself. -/
theorem handle_inThread_deferred :
    let table := (Builder.run [.register "m".text "deferred".text (.function Sample.deferred)
      [.param ⟨.text "value".text, .any, .bool true⟩] false]).table
    let run (inThread : Bool) : Run Activity :=
      (handle (.built table) ⟨true, inThread⟩ .outside .null
        (.request ⟨"m".text, "deferred".text, [.int 1], .null⟩)).evaluate .outside
    (run true).outcome = .returned (envelope unawaited) ∧
    (run false).outcome = .returned (envelope (.list [.int 1, .text "deferred".text])) ∧
    (run true).outcome ≠ (run false).outcome := by
  intro table run
  have htrue : (run true).outcome = .returned (envelope unawaited) := rfl
  have hfalse : (run false).outcome =
      .returned (envelope (.list [.int 1, .text "deferred".text])) := rfl
  refine ⟨htrue, hfalse, fun h => ?_⟩
  rw [htrue, hfalse] at h
  simp [envelope, unawaited] at h

end Dispatch

end RpcContract
