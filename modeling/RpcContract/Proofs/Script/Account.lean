import RpcContract.Proofs.Script.Meaning
import RpcContract.Proofs.Script.Order

/-!
# The account of a fiber

Every open body of a fiber knows what follows behind it, and with it the context that is found there
again.  So a fiber has, at every moment, a meaning before it; together with what it has done that is
its account.  The steps that a fiber makes by itself move deeds from what it is going to do to what
it has done and leave the account as it is.
-/

namespace RpcContract.Script

open Meaning

variable {birth : Nat → Birth} {f f' : Fiber} {request : Request}

/-- A deed whose tasks are known in another way. -/
def Deed.map {σ τ : Type} (g : σ → τ) : Deed σ → Deed τ
  | .saw o => .saw o
  | .forked awaited tasks => .forked awaited (tasks.map g)

/-- What follows when an open body has ended, in the context that is found there. -/
def Frame.meaning (frame : Frame) (context : Option Value) (started : List Ending)
    (ending : Ending) : Meaning :=
  let next := fun started => bodyMeaning context started frame.rest
  match frame.exit with
  | .attempt => (caught started ending).andThen next
  | .within manner result _ => (returned manner result started ending).andThen next
  | .scope _ | .thread => (ends started ending).andThen next
  -- The whole script waits for tasks in an order that is up to the schedule.
  | .whole => ⟨[], started, ending, False⟩
  | .postponed later => (ends started ending).andThen fun started => ends started later

/-- What a meaning in the innermost of some open bodies comes to outside all of them. -/
def unwind (a : Ambient) : List Frame → Meaning → Meaning
  | [], m => m
  | frame :: outer, m =>
    let found := frame.exit.undo a
    unwind found outer (m.bind (frame.meaning found.context))

@[simp]
theorem unwind_behind (a : Ambient) (frames : List Frame) (m : Meaning)
    (deeds : List (Deed Birth)) (p : Prop) :
    unwind a frames (m.behind deeds p) = (unwind a frames m).behind deeds p := by
  -- Over the open bodies: the deeds are the same on every level, only the surroundings change.
  induction frames generalizing a m with
  | nil => rfl
  | cons frame outer ih => simp only [unwind, bind_behind, ih]

theorem settled_of_unwind {a : Ambient} {frames : List Frame} {m : Meaning}
    (h : (unwind a frames m).settled) : m.settled := by
  induction frames generalizing a m with
  | nil => exact h
  | cons frame outer ih => exact settled_of_bind (ih h)

/-- What a fiber is about to do, where the fibers that it waits for end as given. -/
def Control.meaning (endings : Nat → Ending) (context : Option Value) (started : List Ending) :
    Control → Meaning
  | .running steps => bodyMeaning context started steps
  | .leaving ending | .ended ending => ends started ending
  | .gathering children rest =>
    (gather started (children.map endings)).andThen fun started =>
      bodyMeaning context started rest
  | .joining child rest =>
    (ends started (endings child)).andThen fun started => bodyMeaning context started rest

namespace Fiber

/-- What a fiber has done. -/
def trail (birth : Nat → Birth) (f : Fiber) : List (Deed Birth) :=
  f.done.reverse.map (Deed.map birth)

/-- How the tasks end that a fiber has started without waiting for them. -/
def startedEndings (birth : Nat → Birth) (f : Fiber) : List Ending :=
  f.started.map fun id => (birth id).meaning.ending

/-- What a fiber is about to do in the innermost open body. -/
def next (birth : Nat → Birth) (f : Fiber) : Meaning :=
  f.control.meaning (fun id => (birth id).meaning.ending) f.ambient.context (f.startedEndings birth)

/-- What a fiber has done, and what follows if it goes on as given in the innermost open body. -/
def accountOf (birth : Nat → Birth) (f : Fiber) (m : Meaning) : Meaning :=
  (unwind f.ambient f.frames m).behind (f.trail birth) True

/-- What a fiber has done, and what it is going to do. -/
def account (birth : Nat → Birth) (f : Fiber) : Meaning := f.accountOf birth (f.next birth)

theorem settled_next (h : (f.account birth).settled) : (f.next birth).settled :=
  settled_of_unwind h.2

@[simp]
theorem trail_see (birth : Nat → Birth) (f : Fiber) (o : Observation) (control : Control) :
    (f.see o control).trail birth = f.trail birth ++ [.saw o] := by
  simp [trail, see, Deed.map]

@[simp]
theorem startedEndings_see (birth : Nat → Birth) (f : Fiber) (o : Observation)
    (control : Control) : (f.see o control).startedEndings birth = f.startedEndings birth := by
  simp [startedEndings, started, see]

/-- What is seen stands at the end of what has been done, or just before what is to follow. -/
theorem account_see (birth : Nat → Birth) (f : Fiber) (o : Observation) (control : Control) :
    (f.see o control).account birth =
      f.accountOf birth (({ f with control := control }.next birth).see o) := by
  simp only [account, accountOf, next, trail_see, startedEndings_see, Meaning.see, unwind_behind,
    behind_behind, and_self]
  rfl

/-- What follows in a body that is opened, and then behind it, follows outside. -/
theorem accountOf_enter (birth : Nat → Birth) (f : Fiber) {exit : Exit} (body rest : List Step)
    (m : Meaning) (hundo : exit.undo f.ambient = f.ambient) :
    (f.enter exit body rest).accountOf birth m =
      f.accountOf birth (m.bind (Frame.meaning ⟨exit, rest⟩ f.ambient.context)) := by
  simp only [accountOf, enter, unwind, hundo]
  rfl

/-- What follows in a scope that is entered, and then behind it, follows outside. -/
theorem accountOf_enterScope (birth : Nat → Birth) (f : Fiber) (v : Value) {exit : Saved → Exit}
    (body rest : List Step) (m : Meaning)
    (hundo : ∀ saved a, (exit saved).undo a = a.restore saved) :
    (f.enterScope v exit body rest).accountOf birth m =
      f.accountOf birth (m.bind
        (Frame.meaning ⟨exit (f.ambient.save (.context v)), rest⟩ f.ambient.context)) := by
  simp only [accountOf, enterScope, unwind, hundo, Ambient.restore_set_save]
  rfl

theorem required_context (a : Ambient) : required a.context = a.requireContext := rfl

/-- A step that concerns no other fiber does what it means. -/
theorem account_perform (birth : Nat → Birth) (f : Fiber) (step : Step) (rest : List Step)
    (hquiet : (f.perform step rest).2.isQuiet = true) :
    (f.perform step rest).1.account birth =
      f.accountOf birth
        (bodyMeaning f.ambient.context (f.startedEndings birth) (step :: rest)) := by
  cases step with
  | read | readOrNull | inside =>
    -- An observation is one more deed on the left and stands in front of what follows on the right.
    rw [perform, account_see, bodyMeaning, Step.meaning, see_andThen, ends_andThen_ok]
    rfl
  | readRaw =>
    rw [bodyMeaning, Step.meaning, required_context, perform]
    cases f.ambient.requireContext with
    -- In a context it is handed out; the other case ends the body.
    | ok v =>
      simp only [account_see, see_andThen, ends_andThen_ok]
      rfl
    | error failure =>
      simp only [ends_andThen_error]
      rfl
  | raise message =>
    rw [perform, bodyMeaning, Step.meaning, ends_andThen_error]
    rfl
  | attempt body =>
    -- A body that is opened brings its frame along, and the frame means what the step does with the
    -- ending of the body.
    rw [perform, account, accountOf_enter, bodyMeaning, Step.meaning, bind_andThen]
    · rfl
    · rfl
  | within manner v body result =>
    rw [perform, account, accountOf_enterScope, bodyMeaning, Step.meaning, bind_andThen]
    · rfl
    · exact fun _ _ => rfl
  | scope v body =>
    -- Entering is seen in front of the body, in both accounts.
    rw [perform, account_see, accountOf_enterScope, bodyMeaning, Step.meaning, see_andThen,
      see_bind, ← bind_ends_andThen]
    · rfl
    · exact fun _ _ => rfl
  | yield =>
    rw [perform, bodyMeaning, Step.meaning, ends_andThen_ok]
    rfl
  | thread body =>
    rw [perform, account, accountOf_enter, bodyMeaning, Step.meaning, ← bind_ends_andThen]
    · rfl
    · rfl
  | fork awaited bodies => exact absurd hquiet Bool.false_ne_true
  | await task =>
    have hending : (f.startedEndings birth)[task]? =
        -- The task is looked up by its fiber on the one side and by its ending on the other.
        f.started[task]?.map fun id => (birth id).meaning.ending := List.getElem?_map
    rw [bodyMeaning, Step.meaning, hending, perform]
    cases f.started[task]? with
    -- A fiber that waits for one child means what the child ends with, and then the rest.
    | some child => rfl
    | none =>
      simp only [Option.map_none, Option.getD_none, ends_andThen_ok]
      rfl
  | join => exact absurd hquiet Bool.false_ne_true

/-- What is done when an open body ends is what its frame means. -/
theorem account_leave (birth : Nat → Birth) (f : Fiber) (frame : Frame) (ending : Ending)
    (hsettled : (frame.meaning f.ambient.context (f.startedEndings birth) ending).settled) :
    (f.leave frame ending).1.account birth =
      f.accountOf birth
        (frame.meaning f.ambient.context (f.startedEndings birth) ending) := by
  obtain ⟨exit, rest⟩ := frame
  -- By how the body is left and how it has ended, which is what `leave` looks at.
  match exit, ending with
  | .attempt, .ok () | .scope _, .ok () =>
    simp only [Frame.meaning, caught, ends_andThen_ok]
    rfl
  | .attempt, .error failure =>
    simp only [Frame.meaning, caught, see_andThen, ends_andThen_ok, leave, account_see]
    rfl
  | .within manner result _, .ok () =>
    simp only [Frame.meaning, returned, see_andThen, ends_andThen_ok, leave, account_see]
    rfl
  | .within _ _ _, .error failure | .scope _, .error failure =>
    simp only [Frame.meaning, returned, ends_andThen_error]
    rfl
  | .thread, .ok () =>
    -- The turn that the report takes means nothing.
    have hyield : bodyMeaning f.ambient.context (f.startedEndings birth) (.yield :: rest) =
        bodyMeaning f.ambient.context (f.startedEndings birth) rest := by
      rw [bodyMeaning, Step.meaning, ends_andThen_ok]
    simp only [Frame.meaning, ends_andThen_ok]
    rw [← hyield]
    rfl
  | .thread, .error failure =>
    -- The failure is put off for a turn, behind which it is raised.
    let waiting : Frame := ⟨.postponed (.error failure), []⟩
    have hwait : (bodyMeaning f.ambient.context (f.startedEndings birth) [.yield]).bind
        (waiting.meaning f.ambient.context) =
          ends (f.startedEndings birth) (.error failure) := by
      simp only [bodyMeaning, Step.meaning, ends_andThen_ok, ends_bind, Frame.meaning, waiting]
    simp only [Frame.meaning, ends_andThen_error]
    rw [← hwait]
    rfl
  | .whole, _ => exact absurd hsettled id
  | .postponed later, .ok () =>
    simp only [Frame.meaning, ends_andThen_ok]
    rfl
  | .postponed later, .error failure =>
    simp only [Frame.meaning, ends_andThen_error]
    rfl

/-- The steps that a fiber makes by itself leave its account as it is. -/
theorem account_of_advance? (h : f.advance? = some (f', request))
    (hquiet : request.isQuiet = true) (hsettled : (f.account birth).settled) :
    f'.account birth = f.account birth := by
  obtain ⟨ambient, control, frames, done, listener⟩ := f
  -- What the fiber is about to do says which of the steps it is.
  match control with
  | .running [] =>
    obtain ⟨rfl, -⟩ := Prod.mk.inj (Option.some.inj h)
    simp only [account, next, Control.meaning, bodyMeaning]
    rfl
  | .running (step :: rest) =>
    obtain ⟨rfl, rfl⟩ := Prod.ext_iff.1 (Option.some.inj h)
    exact account_perform birth _ step rest hquiet
  | .leaving ending =>
    cases frames with
    | nil =>
      obtain ⟨rfl, -⟩ := Prod.mk.inj (Option.some.inj h)
      rfl
    | cons frame outer =>
      obtain ⟨rfl, rfl⟩ := Prod.ext_iff.1 (Option.some.inj h)
      -- The account speaks of the surroundings that are found again outside the body.
      let outside : Fiber := ⟨frame.exit.undo ambient, .leaving ending, outer, done, listener⟩
      have hclose : account birth ⟨ambient, .leaving ending, frame :: outer, done, listener⟩ =
          outside.accountOf birth
            (frame.meaning outside.ambient.context (outside.startedEndings birth) ending) := by
        simp only [account, accountOf, next, Control.meaning, unwind, ends_bind]
        rfl
      rw [hclose] at hsettled ⊢
      exact account_leave birth outside frame ending (settled_of_unwind hsettled.2)
  -- A fiber that waits or has ended makes no step by itself.
  | .gathering _ _ | .joining _ _ | .ended _ => exact absurd h (by simp [advance?])

/-- How the wait goes on that a fiber begins when it starts others. -/
theorem next_forked (birth : Nat → Birth) (f : Fiber) (awaited : Bool) (children : List Nat)
    (rest : List Step) :
    (f.forked awaited children rest).next birth =
      (if awaited then
        gather (f.startedEndings birth) (children.map fun id => (birth id).meaning.ending)
      else
        ends (f.startedEndings birth ++ children.map fun id => (birth id).meaning.ending)
          (.ok ())).andThen fun started => bodyMeaning f.ambient.context started rest := by
  cases awaited with
  | false => simp [next, forked, startedEndings, started, Control.meaning]
  -- Nobody to wait for is one case, since then the wait is over at once.
  | true =>
    cases children with
    | nil => simp [next, forked, startedEndings, started, Control.meaning, gather]
    | cons child others => simp [next, forked, startedEndings, started, Control.meaning]

/-- Starting others leaves the account as it is, if they are known as what they are started with. -/
theorem account_forked {awaited : Bool} {children : List Nat} {bodies : List (List Step)}
    {rest : List Step} (hcontrol : f.control = .running (.fork awaited bodies :: rest))
    (hchildren : children.map birth = bodies.map (Birth.mk f.ambient.context))
    (hsettled : (f.account birth).settled) :
    (f.forked awaited children rest).account birth = f.account birth ∧
      ∀ id ∈ children, (birth id).meaning.settled := by
  have htasks : meanings f.ambient.context bodies = children.map fun id => (birth id).meaning := by
    have hmeanings := congrArg (List.map Birth.meaning) hchildren
    rw [List.map_map, List.map_map] at hmeanings
    rw [meanings_eq_map]
    exact hmeanings.symm
  -- What the control says is one factor of the account; the rest of it is not touched.
  -- The step is settled only where all its tasks are, so its condition can be dropped.
  have hstep := settled_next hsettled
  simp only [next, hcontrol, Control.meaning, bodyMeaning, Step.meaning, htasks, List.map_map,
    behind_andThen] at hstep
  have hcondition := hstep.1
  refine ⟨?_, fun id hid => hcondition _ (List.mem_map_of_mem hid)⟩
  have htrail : (f.forked awaited children rest).trail birth =
      f.trail birth ++ [.forked awaited (bodies.map (Birth.mk f.ambient.context))] := by
    simp [trail, forked, Deed.map, hchildren]
  simp only [account, accountOf, next_forked, htrail]
  simp only [next, hcontrol, Control.meaning, bodyMeaning, Step.meaning, htasks, List.map_map,
    eq_true hcondition, behind_andThen, unwind_behind, behind_behind, and_self]
  rfl

/-- Learning how another fiber has ended leaves the account as it is, if that one ends so. -/
theorem account_of_hears {child : Nat} {ending : Ending} {control : Control}
    (h : Hears child ending f.control control) (hending : (birth child).meaning.ending = ending)
    (hsettled : (f.account birth).settled) :
    account birth { f with control := control } = f.account birth := by
  -- Only what the fiber is about to do changes, and that means the same with the ending in it.
  have hsame : f.next birth = next birth { f with control := control } := by
    have hnext := settled_next hsettled
    obtain ⟨ambient, before, frames, done, listener⟩ := f
    simp only [next] at h hnext ⊢
    cases h with
    | @failure failure _ awaited =>
      cases before with
      | gathering children rest =>
        have hmem : .error failure ∈ children.map fun id => (birth id).meaning.ending :=
          List.mem_map.2 ⟨child, awaited, hending⟩
        simp only [Control.meaning, gather_of_failure hmem hnext.1, ends_andThen_error]
        rfl
      | joining other rest =>
        obtain rfl : child = other := List.mem_singleton.1 awaited
        simp only [Control.meaning, hending, ends_andThen_error]
        rfl
      | running | leaving | ended => exact absurd awaited List.not_mem_nil
    | joined rest =>
      simp only [Control.meaning, hending, ends_andThen_ok]
      rfl
    | @last children rest awaited left =>
      simp only [Control.meaning]
      rw [← gather_erase children hending, left, List.map_nil, gather, ends_andThen_ok]
      rfl
    | @next children rest awaited left =>
      simp only [Control.meaning]
      rw [← gather_erase children hending]
      rfl
  simp only [account, accountOf, hsame]
  rfl

/-- The account of a fiber depends only on what the fibers that it knows are started with. -/
theorem account_congr {birth' : Nat → Birth} {own count : Nat} (h : f.Knows own count)
    (hsame : ∀ id < count, birth id = birth' id) : f.account birth = f.account birth' := by
  have htrail : f.trail birth = f.trail birth' := by
    refine List.map_congr_left fun deed hdeed => ?_
    cases deed with
    | saw => rfl
    | forked awaited children =>
      have hchildren := h.tasks _ (List.mem_reverse.1 hdeed)
      exact congrArg (Deed.forked awaited)
        (List.map_congr_left fun id hid => hsame id (hchildren id hid).2)
  have hending : ∀ id < count, (birth id).meaning.ending = (birth' id).meaning.ending :=
    fun id hid => by rw [hsame id hid]
  have hstarted : f.startedEndings birth = f.startedEndings birth' :=
    List.map_congr_left fun id hid => hending id (h.of_started hid).2
  have hnext : f.next birth = f.next birth' := by
    have hawaits := h.awaits
    rw [next, next, hstarted]
    -- Only a fiber that waits knows others by name here.
    cases hcontrol : f.control with
    | running | leaving | ended => rfl
    | gathering children rest =>
      rw [hcontrol] at hawaits
      have hendings : (children.map fun id => (birth id).meaning.ending) =
          children.map fun id => (birth' id).meaning.ending :=
        List.map_congr_left fun id hid => hending id (hawaits id hid).2
      simp only [Control.meaning]
      rw [hendings]
    | joining child rest =>
      rw [hcontrol] at hawaits
      simp only [Control.meaning]
      rw [hending child (hawaits child (List.mem_singleton_self child)).2]
  rw [account, account, accountOf, accountOf, htrail, hnext]

end Fiber

end RpcContract.Script
