import RpcContract.Script.Run

/-!
# The meaning of scripts

A script has a meaning that knows nothing of fibers and turns.  The context is an argument that is
passed down: a scope passes its own context to its body, and a task that is started is given the
context of the place where it is started.  What is read is always that argument.
-/

namespace RpcContract.Script

/-- What a task is started with: the context of the place where it is started, and its body. -/
structure Birth where
  context : Option Value
  body : List Step

/-- What a part of a script comes to. -/
structure Meaning where
  deeds : List (Deed Birth)
  /-- How the tasks end that the script started so far without waiting for them. -/
  started : List Ending
  ending : Ending
  /-- Nothing in it is left to the schedule. -/
  settled : Prop

/-- The context where there must be one. -/
def required : Option Value → Except Failure Value
  | some v => .ok v
  | none => .error .noContext

namespace Meaning

/-- Nothing is done before the end. -/
def ends (started : List Ending) (ending : Ending) : Meaning := ⟨[], started, ending, True⟩

/-- A meaning behind some deeds, settled only under a condition. -/
def behind (m : Meaning) (deeds : List (Deed Birth)) (condition : Prop) : Meaning :=
  { m with deeds := deeds ++ m.deeds, settled := condition ∧ m.settled }

/-- A meaning behind one observation. -/
def see (m : Meaning) (o : Observation) : Meaning := m.behind [.saw o] True

/-- What follows on every ending. -/
def bind (m : Meaning) (next : List Ending → Ending → Meaning) : Meaning :=
  (next m.started m.ending).behind m.deeds m.settled

/-- What follows where there is no failure. -/
def andThen (m : Meaning) (next : List Ending → Meaning) : Meaning :=
  m.bind fun started ending =>
    match ending with
    | .ok () => next started
    | .error failure => ends started (.error failure)

/-- A failure is caught. -/
def caught (started : List Ending) : Ending → Meaning
  | .ok () => ends started (.ok ())
  | .error failure => (ends started (.ok ())).see (.caught failure)

/-- A body that ends by itself returns a value. -/
def returned (manner : Manner) (result : Value) (started : List Ending) : Ending → Meaning
  | .ok () => (ends started (.ok ())).see (.returned manner result)
  | .error failure => ends started (.error failure)

/-- The wait for several tasks at once, which is over when one has failed.  Which failure is met
first is up to the schedule, unless all that there are are the same. -/
def gather (started : List Ending) : List Ending → Meaning
  | [] => ends started (.ok ())
  | .ok () :: rest => gather started rest
  | .error failure :: rest =>
    ⟨[], started, .error failure, ∀ other, .error other ∈ rest → other = failure⟩

end Meaning

open Meaning

mutual

/-- The meaning of a step in a context, behind the starts of some tasks. -/
def Step.meaning (context : Option Value) (started : List Ending) : Step → Meaning
  | .read => (ends started (.ok ())).see (.read (required context))
  | .readOrNull => (ends started (.ok ())).see (.readOrNull (context.getD .null))
  | .inside => (ends started (.ok ())).see (.inside context.isSome)
  | .readRaw =>
    match required context with
    | .ok v => (ends started (.ok ())).see (.readRaw v)
    | .error failure => ends started (.error failure)
  | .raise message => ends started (.error (.raised .runtime [message]))
  | .attempt body => (bodyMeaning context started body).bind caught
  | .within manner v body result =>
    (bodyMeaning (some v) started body).bind (returned manner result)
  | .scope v body => (bodyMeaning (some v) started body).see (.entered v)
  | .yield => ends started (.ok ())
  | .thread body => bodyMeaning context started body
  | .fork awaited bodies =>
    -- The tasks are given the context of this place, whatever it becomes later.
    let tasks := meanings context bodies
    let endings := tasks.map Meaning.ending
    (if awaited then gather started endings else ends (started ++ endings) (.ok ())).behind
      [.forked awaited (bodies.map (Birth.mk context))] (∀ task ∈ tasks, task.settled)
  | .await task => ends started (started[task]?.getD (.ok ()))
  -- The order in which the tasks of all fibers are started is up to the schedule.
  | .join => ⟨[], started, .ok (), False⟩

/-- The meaning of a body in a context. -/
def bodyMeaning (context : Option Value) (started : List Ending) : List Step → Meaning
  | [] => ends started (.ok ())
  | step :: rest =>
    (step.meaning context started).andThen fun started => bodyMeaning context started rest

/-- The meanings of the bodies of tasks that are started in a context. -/
def meanings (context : Option Value) : List (List Step) → List Meaning
  | [] => []
  | body :: rest => bodyMeaning context [] body :: meanings context rest

end

/-- The meaning of the body of a task. -/
def Birth.meaning (b : Birth) : Meaning := bodyMeaning b.context [] b.body

/-- What a task does, with what the tasks that it starts do, up to a depth of tasks that start
tasks. -/
def Birth.tree : Nat → Birth → List Entry
  | 0, _ => []
  | depth + 1, b => b.meaning.deeds.map fun
    | .saw o => .saw o
    | .forked awaited births => .forked awaited (births.map (Birth.tree depth))

theorem meanings_eq_map (context : Option Value) (bodies : List (List Step)) :
    meanings context bodies = bodies.map fun body => (Birth.mk context body).meaning := by
  induction bodies with
  | nil => rfl
  | cons body rest ih => rw [meanings, ih]; rfl

/-! ## Laws -/

namespace Meaning

variable {m : Meaning} {started : List Ending} {next : List Ending → Ending → Meaning}

@[simp]
theorem behind_nil (m : Meaning) : m.behind [] True = m := by
  simp [behind]

@[simp]
theorem behind_behind (m : Meaning) (deeds deeds' : List (Deed Birth)) (p q : Prop) :
    (m.behind deeds p).behind deeds' q = m.behind (deeds' ++ deeds) (q ∧ p) := by
  simp [behind, and_assoc]

@[simp]
theorem bind_behind (m : Meaning) (deeds : List (Deed Birth)) (p : Prop)
    (next : List Ending → Ending → Meaning) :
    (m.behind deeds p).bind next = (m.bind next).behind deeds p := by
  simp [bind, behind, and_assoc]

@[simp]
theorem ends_bind (started : List Ending) (ending : Ending)
    (next : List Ending → Ending → Meaning) :
    (ends started ending).bind next = next started ending := by
  simp [bind, ends]

@[simp]
theorem bind_bind (m : Meaning) (next after : List Ending → Ending → Meaning) :
    (m.bind next).bind after = m.bind fun started ending => (next started ending).bind after := by
  unfold bind
  simp [behind, and_assoc]

@[simp]
theorem see_bind (m : Meaning) (o : Observation) (next : List Ending → Ending → Meaning) :
    (m.see o).bind next = (m.bind next).see o :=
  bind_behind m [.saw o] True next

@[simp]
theorem ends_andThen_ok (started : List Ending) (next : List Ending → Meaning) :
    (ends started (.ok ())).andThen next = next started :=
  ends_bind _ _ _

@[simp]
theorem ends_andThen_error (started : List Ending) (failure : Failure)
    (next : List Ending → Meaning) :
    (ends started (.error failure)).andThen next = ends started (.error failure) :=
  ends_bind _ _ _

@[simp]
theorem behind_andThen (m : Meaning) (deeds : List (Deed Birth)) (p : Prop)
    (next : List Ending → Meaning) :
    (m.behind deeds p).andThen next = (m.andThen next).behind deeds p :=
  bind_behind _ _ _ _

@[simp]
theorem see_andThen (m : Meaning) (o : Observation) (next : List Ending → Meaning) :
    (m.see o).andThen next = (m.andThen next).see o :=
  bind_behind _ _ _ _

@[simp]
theorem bind_andThen (m : Meaning) (next : List Ending → Ending → Meaning)
    (after : List Ending → Meaning) :
    (m.bind next).andThen after =
      m.bind fun started ending => (next started ending).andThen after :=
  bind_bind _ _ _

/-- An ending that is passed on changes nothing for what follows where there is no failure. -/
theorem bind_ends_andThen (m : Meaning) (next : List Ending → Meaning) :
    (m.bind fun started ending => (ends started ending).andThen next) = m.andThen next := by
  simp only [andThen, ends_bind]

theorem settled_of_bind (h : (m.bind next).settled) : m.settled := h.1

/-- A wait that meets a settled failure is over with it. -/
theorem gather_of_failure {endings : List Ending} {failure : Failure}
    (hmem : .error failure ∈ endings) (hsettled : (gather started endings).settled) :
    gather started endings = ends started (.error failure) := by
  -- Over the tasks: those that end by themselves are passed over until the first failure.
  induction endings with
  | nil => exact absurd hmem List.not_mem_nil
  | cons ending rest ih =>
    cases ending with
    | ok =>
      have hrest : .error failure ∈ rest := by simpa using hmem
      exact ih hrest hsettled
    | error first =>
      -- Whichever failure comes first, it is the same one.
      have hsame : failure = first := by
        rcases List.mem_cons.1 hmem with h | h
        · exact Except.error.inj h
        · exact hsettled failure h
      subst hsame
      have htrue : (∀ other, .error other ∈ rest → other = failure) = True := eq_true hsettled
      simp only [gather, ends, htrue]

/-- A wait need not regard a task that ends by itself. -/
theorem gather_erase {endings : Nat → Ending} {child : Nat} (children : List Nat)
    (hchild : endings child = .ok ()) :
    gather started ((children.erase child).map endings) =
      gather started (children.map endings) := by
  induction children with
  | nil => rfl
  | cons first rest ih =>
    -- The task that is left out is the first one, or it is behind it.
    by_cases hfirst : first = child
    · subst hfirst
      simp [hchild, gather]
    · rw [List.erase_cons_tail (by simpa using hfirst)]
      -- A task that ends by itself is passed over on both sides.
      cases hending : endings first with
      | ok => simpa [hending, gather] using ih
      | error failure =>
        have hmem : ∀ other, .error other ∈ (rest.erase child).map endings ↔
            .error other ∈ rest.map endings := by
          intro other
          simp only [List.mem_map]
          constructor
          · rintro ⟨task, htask, h⟩
            exact ⟨task, List.mem_of_mem_erase htask, h⟩
          · rintro ⟨task, htask, h⟩
            -- A task that fails is not the one that is left out.
            have hne : task ≠ child := by
              rintro rfl
              simp [hchild] at h
            exact ⟨task, (List.mem_erase_of_ne hne).2 htask, h⟩
        simp [hending, gather, hmem]

end Meaning

/-! ## Scripts that leave nothing to the schedule -/

mutual

/-- Whether a step waits for tasks only one by one. -/
def Step.isPlain : Step → Bool
  | .attempt body | .within _ _ body _ | .scope _ body | .thread body => isPlainBody body
  | .fork awaited bodies => !awaited && arePlainBodies bodies
  | .join => false
  | _ => true

/-- Whether all steps of a body wait for tasks only one by one. -/
def isPlainBody : List Step → Bool
  | [] => true
  | step :: rest => step.isPlain && isPlainBody rest

/-- Whether all steps of several bodies wait for tasks only one by one. -/
def arePlainBodies : List (List Step) → Bool
  | [] => true
  | body :: rest => isPlainBody body && arePlainBodies rest

end

theorem Meaning.settled_andThen {m : Meaning} {next : List Ending → Meaning} (hm : m.settled)
    (hnext : ∀ started, (next started).settled) : (m.andThen next).settled := by
  -- The first part is settled, and so is what follows on either ending of it.
  refine ⟨hm, ?_⟩
  cases m.ending with
  | ok => exact hnext _
  | error => exact trivial

theorem Meaning.settled_bind {m : Meaning} {next : List Ending → Ending → Meaning}
    (hm : m.settled) (hnext : ∀ started ending, (next started ending).settled) :
    (m.bind next).settled :=
  ⟨hm, hnext _ _⟩

mutual

theorem Step.settled_of_isPlain (step : Step) (context : Option Value) (started : List Ending)
    (h : step.isPlain = true) : (step.meaning context started).settled := by
  -- By the constructors of steps: what has a body is settled by the body, and whatever is done with
  -- its ending leaves nothing open.
  match step with
  | .read | .readOrNull | .inside => exact ⟨trivial, trivial⟩
  | .readRaw =>
    rw [Step.meaning]
    cases required context with
    | ok v => exact ⟨trivial, trivial⟩
    | error failure => exact trivial
  | .raise _ | .yield | .await _ => exact trivial
  | .attempt body =>
    refine Meaning.settled_bind (settled_of_isPlainBody body context started h) ?_
    -- A failure is caught, which is one more observation; nothing else is left to the schedule.
    rintro started (_ | _)
    · exact ⟨trivial, trivial⟩
    · exact trivial
  | .within manner v body result =>
    refine Meaning.settled_bind (settled_of_isPlainBody body (some v) started h) ?_
    rintro started (_ | _)
    · exact trivial
    · exact ⟨trivial, trivial⟩
  | .scope v body => exact ⟨trivial, settled_of_isPlainBody body (some v) started h⟩
  | .thread body => exact settled_of_isPlainBody body context started h
  | .fork awaited bodies =>
    obtain ⟨hawaited, hbodies⟩ : awaited = false ∧ arePlainBodies bodies = true := by
      simpa [Step.isPlain] using h
    subst hawaited
    exact ⟨settled_of_arePlainBodies bodies context hbodies, trivial⟩
  -- A step that waits for whatever is left is not plain.
  | .join => exact absurd h Bool.false_ne_true

theorem settled_of_isPlainBody (body : List Step) (context : Option Value) (started : List Ending)
    (h : isPlainBody body = true) : (bodyMeaning context started body).settled := by
  match body with
  | [] => exact trivial
  | step :: rest =>
    obtain ⟨hstep, hrest⟩ : step.isPlain = true ∧ isPlainBody rest = true := by
      simpa [isPlainBody] using h
    exact Meaning.settled_andThen (step.settled_of_isPlain context started hstep)
      fun started => settled_of_isPlainBody rest context started hrest

theorem settled_of_arePlainBodies (bodies : List (List Step)) (context : Option Value)
    (h : arePlainBodies bodies = true) : ∀ task ∈ meanings context bodies, task.settled := by
  match bodies with
  | [] => exact fun _ htask => absurd htask List.not_mem_nil
  | body :: rest =>
    obtain ⟨hbody, hrest⟩ : isPlainBody body = true ∧ arePlainBodies rest = true := by
      simpa [arePlainBodies] using h
    intro task htask
    rcases List.mem_cons.1 htask with rfl | htask
    · exact settled_of_isPlainBody body context [] hbody
    · exact settled_of_arePlainBodies rest context hrest task htask

end

end RpcContract.Script
