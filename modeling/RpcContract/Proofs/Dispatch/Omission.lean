import RpcContract.Proofs.Dispatch.Arity
import RpcContract.Proofs.Validation.Acceptance

/-!
# Undefined in the place of arguments that are left out

A request may leave the arguments of optional parameters out at its end, or send undefined for them.
Either way the check comes to the same: an absent argument passes for an optional parameter, and
where too few arguments are given for the required parameters the positions say so as the count
does.  The call gets the same arguments, for it leaves undefined ones at the end out, and so the
dispatch ends alike.
-/

namespace RpcContract

namespace Param

variable {allowNull : AllowNull} {params : List Param} {args : List Value} {n k : Nat}

/-- There are `k` parameters behind the first `n`, and they are optional. -/
def OptionalBehind (params : List Param) (n k : Nat) : Prop :=
  ∀ i < k, ∃ param, params[n + i]? = some param ∧ param.optional = true

theorem OptionalBehind.le_length (h : OptionalBehind params n k) (hn : n ≤ params.length) :
    n + k ≤ params.length := by
  cases k with
  | zero => exact hn
  | succ k =>
    -- The last of the `k` parameters stands at `n + k`, so the list reaches that far.
    obtain ⟨param, hparam, _⟩ := h k (Nat.lt_succ_self k)
    obtain ⟨hlt, _⟩ := List.getElem?_eq_some_iff.1 hparam
    omega

/-- An optional parameter takes nothing and undefined alike. -/
theorem admits_nothing_iff {param : Param} (h : param.optional = true) :
    param.Admits allowNull (some .undefined) ↔ param.Admits allowNull none := by
  have hnothing : param.Admits allowNull none := h
  have hundefined : param.Admits allowNull (some .undefined) := .inl ⟨h, rfl⟩
  exact iff_of_true hundefined hnothing

/-- Undefined for optional parameters behind the last argument makes no arguments right or wrong. -/
theorem admitsAll_append_undefined (h : OptionalBehind params args.length k) :
    AdmitsAll allowNull params (args ++ List.replicate k .undefined) ↔
      AdmitsAll allowNull params args := by
  -- The arguments added are for parameters that there are, so they do not make too many.
  have hlength : (args ++ List.replicate k Value.undefined).length ≤ params.length ↔
      args.length ≤ params.length := by
    rw [List.length_append, List.length_replicate]
    exact ⟨fun hle => by omega, h.le_length⟩
  unfold AdmitsAll
  rw [hlength]
  -- What remains to be compared is what is given for each single parameter.
  refine and_congr_right fun _ => forall_congr' fun i => forall_congr' fun param =>
    forall_congr' fun hparam => ?_
  by_cases hgiven : i < args.length
  · -- In front of the end of `args` both requests give the same.
    rw [List.getElem?_append_left hgiven]
  · have hbehind : args.length ≤ i := Nat.le_of_not_lt hgiven
    rw [List.getElem?_append_right hbehind, List.getElem?_eq_none hbehind,
      List.getElem?_replicate]
    split
    · -- Undefined stands here, for one of the optional parameters.
      rename_i hi
      obtain ⟨optional, hoptional, hmark⟩ := h (i - args.length) hi
      rw [Nat.add_sub_cancel' hbehind, hparam] at hoptional
      cases hoptional
      exact admits_nothing_iff hmark
    · -- Behind the `k` arguments that were added nothing is given by either.
      exact Iff.rfl

end Param

/-- The request with `k` more arguments, all of them undefined. -/
def Request.padded (r : Request) (k : Nat) : Request :=
  { r with args := r.args ++ List.replicate k (.text Wire.placeholder) }

namespace Dispatch

variable {table : Table} {config : Config} {id : CallId} {context : Value}
  {incoming other : Incoming} {a : Ambient} {r : Request} {target : Registered} {k : Nat}

/-- The arguments of a request pass the check. -/
def Passes (config : Config) (target : Registered) (r : Request) : Prop :=
  Validation.checkArgs config.allowNull target.params (Wire.decodeArgs r.args) = .ok ()

theorem passes_padded_iff (h : Param.OptionalBehind target.params r.args.length k) :
    Passes config target (r.padded k) ↔ Passes config target r := by
  -- The parameters are counted against the decoded arguments, which are as many.
  rw [← Wire.length_decodeArgs] at h
  unfold Passes Request.padded
  rw [Wire.decodeArgs_append_placeholder, Validation.checkArgs_eq_ok_iff,
    Validation.checkArgs_eq_ok_iff]
  exact Param.admitsAll_append_undefined h

theorem callArgs_padded (r : Request) (k : Nat) : callArgs (r.padded k) = callArgs r := by
  rw [callArgs, callArgs, Request.padded, Wire.decodeArgs_append_placeholder, Wire.materializeArgs,
    Wire.materializeArgs, Wire.trimUndefined_append_undefined]

theorem step_padded (config : Config) (id : CallId) (a : Ambient) (r : Request)
    (target : Registered) (k : Nat) :
    step config id a (r.padded k) target = step config id a r target := by
  -- The padded request differs in its arguments alone, and its function gets the same ones.
  rw [step, step, callArgs_padded]
  rfl

/-- Two runs that serve a request, one of them with more undefined arguments, end alike. -/
theorem Serves.outcome_padded {run padded : Run Activity} (h : Serves config id a r target run)
    (hpadded : Serves config id a (r.padded k) target padded) : padded.outcome = run.outcome := by
  have hstep := step_padded config id a r target k
  cases houtcome : (step config id a r target).outcome with
  | returned v =>
    rw [(h.returned v houtcome).1, (hpadded.returned v (hstep ▸ houtcome)).1]
  | raised failure =>
    rw [(h.raised failure houtcome).1, (hpadded.raised failure (hstep ▸ houtcome)).1]
    rfl

/-- A request for a registered function is served if its arguments pass; otherwise it is rejected as
the check says, and nothing is called. -/
theorem served_or_rejected (hasks : incoming.Asks context r)
    (hholds : table.Holds r.ns r.function target) {run : Run Activity}
    (hrun : run = (handle (.built table) config id context incoming).evaluate a) :
    (Passes config target r ∧ Serves config id a r target run) ∨
      ∃ rejection,
        Validation.checkArgs config.allowNull target.params (Wire.decodeArgs r.args)
          = .error rejection ∧
        run.outcome = .raised (.ofRejection (some r.ns) (some r.function) rejection) ∧
        Activity.invocations run.trace = [] := by
  subst hrun
  cases hcheck : Validation.checkArgs config.allowNull target.params (Wire.decodeArgs r.args) with
  | ok =>
    left
    exact ⟨hcheck, serves_of_accept_eq_ok hasks (accept_of_check_eq_ok hholds hcheck)⟩
  | error rejection =>
    right
    have haccept := accept_of_check_eq_error (Registry.resolve_of_holds hholds) hcheck
    refine ⟨rejection, rfl, ?_, invocations_of_accept_eq_error hasks haccept⟩
    simp only [handle, Incoming.toRequest_eq_ok_iff.2 hasks, serve, haccept]
    split <;> rfl

/-- A run that ends because the arguments of a request did not pass. -/
def Rejected (r : Request) (run : Run Activity) : Prop :=
  ∃ rejection, run.outcome = .raised (.ofRejection (some r.ns) (some r.function) rejection)

theorem Serves.not_rejected {run : Run Activity} (h : Serves config id a r target run) :
    ¬ Rejected r run := by
  -- A run that serves can only fail with the failure of the invocation.
  rintro ⟨rejection, hend⟩
  refine h.outcome_ne ?_ hend
  cases rejection <;> exact fun _ _ _ => Failure.noConfusion

theorem rejected_iff_not_passes (hasks : incoming.Asks context r)
    (hholds : table.Holds r.ns r.function target) {run : Run Activity}
    (hrun : run = (handle (.built table) config id context incoming).evaluate a) :
    Rejected r run ↔ ¬ Passes config target r := by
  rcases served_or_rejected hasks hholds hrun with ⟨hpass, hserves⟩ | ⟨rejection, hcheck, hend, _⟩
  · exact iff_of_false hserves.not_rejected (fun hnot => hnot hpass)
  · refine iff_of_true ⟨rejection, hend⟩ fun hpass => ?_
    cases hcheck.symm.trans hpass

/-- Where the types of a function are textual, its arguments are rejected as a failed validation. -/
theorem validation_iff_rejected (hasks : incoming.Asks context r)
    (hholds : table.Holds r.ns r.function target)
    (htextual : ∀ param ∈ target.params, param.type.isTextual = true) {run : Run Activity}
    (hrun : run = (handle (.built table) config id context incoming).evaluate a) :
    (∃ report, run.outcome = .raised (.validation report)) ↔ Rejected r run := by
  -- Only a run that was not served ends with a failure of the check, and that is a violation.
  rcases served_or_rejected hasks hholds hrun with ⟨_, hserves⟩ | ⟨rejection, hcheck, hend, _⟩
  · refine iff_of_false ?_ hserves.not_rejected
    rintro ⟨report, hvalidation⟩
    exact hserves.outcome_ne (fun _ _ _ => Failure.noConfusion) hvalidation
  · refine iff_of_true ?_ ⟨rejection, hend⟩
    have hdecides := Validation.checkArgs_decides config.allowNull htextual (Wire.decodeArgs r.args)
    rcases hdecides with ⟨_, hok⟩ | ⟨_, violation, herror⟩
    · cases hcheck.symm.trans hok
    · cases hcheck.symm.trans herror
      exact ⟨_, hend⟩

/-- How the run for a request with undefined arguments at its end compares with the run for the
request without them. -/
structure LikeOmitted (config : Config) (target : Registered) (r : Request) (k : Nat)
    (run padded : Run Activity) : Prop where
  passes_iff : Passes config target (r.padded k) ↔ Passes config target r
  rejected_iff : Rejected (r.padded k) padded ↔ Rejected r run
  /-- Where the types of the function are textual, what is rejected fails the validation. -/
  validation_iff : (∀ param ∈ target.params, param.type.isTextual = true) →
    ((∃ report, padded.outcome = .raised (.validation report)) ↔
      ∃ report, run.outcome = .raised (.validation report))
  invocations : Activity.invocations padded.trace = Activity.invocations run.trace
  /-- What passes is served: the function is called first, with the same arguments. -/
  called : Passes config target r →
    (Activity.invocations run.trace).head? = some (r.ns, r.function, callArgs r)
  outcome : Passes config target r → padded.outcome = run.outcome

/-- **Undefined for optional parameters at the end is nothing at all.**  A request for a registered
function, with undefined arguments for optional parameters behind its last, is rejected exactly when
the request without them is; otherwise the function is called with the same arguments and the
dispatch ends alike. -/
theorem undefined_like_omitted (table : Table) (config : Config) (id : CallId) (context : Value)
    (a : Ambient) {incoming other : Incoming} {r : Request} {k : Nat} {target : Registered}
    (hasks : incoming.Asks context r) (hother : other.Asks context (r.padded k))
    (hholds : table.Holds r.ns r.function target)
    (hoptional : Param.OptionalBehind target.params r.args.length k) :
    LikeOmitted config target r k
      ((handle (.built table) config id context incoming).evaluate a)
      ((handle (.built table) config id context other).evaluate a) := by
  generalize hrun : (handle (.built table) config id context incoming).evaluate a = run
  generalize hpadded : (handle (.built table) config id context other).evaluate a = padded
  have hpasses : Passes config target (r.padded k) ↔ Passes config target r :=
    passes_padded_iff hoptional
  -- Either request is rejected exactly when its arguments do not pass.
  have hrejected : Rejected (r.padded k) padded ↔ Rejected r run := by
    rw [rejected_iff_not_passes hasks hholds hrun.symm,
      rejected_iff_not_passes hother hholds hpadded.symm, hpasses]
  have hserved : Passes config target r →
      Serves config id a r target run ∧ Serves config id a (r.padded k) target padded := by
    intro hpass
    subst hrun hpadded
    exact ⟨serves_of_accept_eq_ok hasks (accept_of_check_eq_ok hholds hpass),
      serves_of_accept_eq_ok hother (accept_of_check_eq_ok hholds (hpasses.2 hpass))⟩
  refine ⟨hpasses, hrejected, ?_, ?_, ?_, ?_⟩
  · intro htextual
    rw [validation_iff_rejected hasks hholds htextual hrun.symm,
      validation_iff_rejected hother hholds htextual hpadded.symm, hrejected]
  · by_cases hpass : Passes config target r
    · obtain ⟨hserves, hserves'⟩ := hserved hpass
      rw [hserves.invocations, hserves'.invocations, step_padded, callArgs_padded]
      rfl
    · -- Neither request passes, and then neither calls anything.
      have hnone := (served_or_rejected hasks hholds hrun.symm).resolve_left fun h => hpass h.1
      have hnone' := (served_or_rejected hother hholds hpadded.symm).resolve_left
        fun h => hpass (hpasses.1 h.1)
      obtain ⟨_, _, _, hcalls⟩ := hnone
      obtain ⟨_, _, _, hcalls'⟩ := hnone'
      rw [hcalls, hcalls']
  · intro hpass
    rw [(hserved hpass).1.invocations, List.head?_cons]
  · intro hpass
    exact (hserved hpass).1.outcome_padded (hserved hpass).2

/-- Behind a required argument undefined for two optional ones passes as nothing does, and the
function is called with the one argument; where a required parameter stands behind an optional one,
undefined for the latter makes up the number of arguments but is rejected all the same. -/
theorem undefined_like_omitted_spy :
    let params : List Param := [⟨.text "a".text, .text "string".text, .bool false⟩,
      ⟨.text "b".text, .text "number".text, .bool true⟩,
      ⟨.text "c".text, .text "number".text, .bool true⟩]
    let swapped : List Param := [⟨.text "b".text, .text "number".text, .bool true⟩,
      ⟨.text "a".text, .text "string".text, .bool false⟩]
    let table := (Builder.run [
      .register "m".text "spy".text (.function Sample.spy) (params.map .param) false,
      .register "m".text "swapped".text (.function Sample.spy) (swapped.map .param) false]).table
    let spy : Request := ⟨"m".text, "spy".text, [.text "x".text], .null⟩
    let late : Request := ⟨"m".text, "swapped".text, [], .null⟩
    let run (r : Request) : Run Activity :=
      (handle (.built table) .default .outside .null (.request r)).evaluate .outside
    Param.OptionalBehind params 1 2 ∧ Param.OptionalBehind swapped 0 1 ∧
    (run (spy.padded 2)).outcome = .returned (envelope (.list [.text "x".text])) ∧
    Rejected (late.padded 1) (run (late.padded 1)) := by
  intro params swapped table spy late run
  have hspy : Param.OptionalBehind params 1 2 := by
    intro i hi
    match i, hi with
    | 0, _ => exact ⟨_, rfl, rfl⟩
    | 1, _ => exact ⟨_, rfl, rfl⟩
  have hswapped : Param.OptionalBehind swapped 0 1 := by
    intro i hi
    obtain rfl : i = 0 := by omega
    exact ⟨_, rfl, rfl⟩
  have hlike := undefined_like_omitted table .default .outside .null .outside
    (.request spy) (.request (spy.padded 2)) ⟨_, rfl, rfl⟩ hspy
  have hlate := undefined_like_omitted table .default .outside .null .outside
    (.request late) (.request (late.padded 1)) ⟨_, rfl, rfl⟩ hswapped
  -- Without the added argument the request has too few, and it is rejected for that.
  refine ⟨hspy, hswapped, (hlike.outcome rfl).trans rfl, hlate.rejected_iff.2 ?_⟩
  exact ⟨.violation (.count 1 2 0), rfl⟩

end Dispatch

end RpcContract
