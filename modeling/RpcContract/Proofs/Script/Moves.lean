import RpcContract.Script.Pool

/-!
# What a turn can do

Whatever turn is taken, it is one of a few moves: a fiber goes on by itself, starts others, or hears
how another one has ended.  No move but a step into or out of one body touches the open bodies of a
fiber, and what surrounds the fiber outside a body stays what it is for as long as the body is open.
-/

namespace RpcContract.Script

/-- The fibers that were started with a deed. -/
def Deed.tasks {τ : Type} : Deed τ → List τ
  | .saw _ => []
  | .forked _ tasks => tasks

/-- The fibers that one is waiting for. -/
def Control.awaits : Control → List Nat
  | .gathering children _ => children
  | .joining child _ => [child]
  | .running _ | .leaving _ | .ended _ => []

/-- The surroundings inside some open bodies and behind each of them, the innermost first. -/
def levels (a : Ambient) : List Frame → List Ambient
  | [] => [a]
  | frame :: outer => a :: levels (frame.exit.undo a) outer

@[simp]
theorem length_levels (a : Ambient) (frames : List Frame) :
    (levels a frames).length = frames.length + 1 := by
  induction frames generalizing a with
  | nil => rfl
  | cons frame outer ih => simp [levels, ih]

theorem head?_levels (a : Ambient) (frames : List Frame) : (levels a frames).head? = some a := by
  cases frames <;> rfl

/-- A request that concerns no other fiber. -/
def Request.isQuiet : Request → Bool
  | .none | .pause | .announce => true
  | .fork _ _ | .join => false

/-- Levels of which the ones have at most one more than the others, within all of them. -/
inductive Adjacent (before : List Ambient) : List Ambient → Prop where
  | same : Adjacent before before
  | inside (a : Ambient) : Adjacent before (a :: before)
  | outside {a : Ambient} {after : List Ambient} (h : before = a :: after) : Adjacent before after

/-- Levels that are not left are kept. -/
theorem Adjacent.suffix {before after kept : List Ambient} (h : Adjacent before after)
    (hkept : kept <:+ before) (hlength : kept.length ≤ after.length) : kept <:+ after := by
  cases h with
  | same => exact hkept
  | inside a => exact hkept.trans (List.suffix_cons a before)
  | outside h =>
    subst h
    -- What is kept is all of it, which is one level more than are left, or it lies within the rest.
    rcases List.suffix_cons_iff.1 hkept with rfl | hkept
    · exact absurd hlength (by simp)
    · exact hkept

namespace Fiber

/-- The surroundings of a fiber and those that it finds again behind each open body. -/
def levels (f : Fiber) : List Ambient := Script.levels f.ambient f.frames

/-- What a step of a fiber keeps. -/
structure Onward (f f' : Fiber) : Prop where
  /-- At most one thing is seen. -/
  done : f'.done = f.done ∨ ∃ o, f'.done = .saw o :: f.done
  /-- No fiber is waited for that was not started. -/
  awaits : ∀ id ∈ f'.control.awaits, id ∈ f.started
  /-- At most one body is opened or left. -/
  levels : Adjacent f.levels f'.levels
  /-- The fiber does not end within an open body. -/
  closed : ∀ ending, f'.control = .ended ending → f'.frames = []
  /-- Several fibers are waited for only where they are started. -/
  alone : ∀ children rest, f'.control ≠ .gathering children rest
  listener : f'.listener = f.listener

/-- The steps of a script keep what a step has to keep. -/
theorem onward_perform (f : Fiber) (step : Step) (rest : List Step) :
    f.Onward (f.perform step rest).1 := by
  cases step with
  -- None of these three opens or leaves a body; they are seen, and the fiber goes on.
  | read | readOrNull | inside => exact ⟨.inr ⟨_, rfl⟩, nofun, .same, nofun, nofun, rfl⟩
  | readRaw =>
    rw [perform]
    cases f.ambient.requireContext with
    | ok v => exact ⟨.inr ⟨_, rfl⟩, nofun, .same, nofun, nofun, rfl⟩
    | error failure => exact ⟨.inl rfl, nofun, .same, nofun, nofun, rfl⟩
  | raise message => exact ⟨.inl rfl, nofun, .same, nofun, nofun, rfl⟩
  | attempt body | thread body => exact ⟨.inl rfl, nofun, .inside _, nofun, nofun, rfl⟩
  | within manner v body result => exact ⟨.inl rfl, nofun, .inside _, nofun, nofun, rfl⟩
  | scope v body => exact ⟨.inr ⟨_, rfl⟩, nofun, .inside _, nofun, nofun, rfl⟩
  | yield | fork | join => exact ⟨.inl rfl, nofun, .same, nofun, nofun, rfl⟩
  | await task =>
    rw [perform]
    -- A task that was started is waited for; any other is passed over.
    cases hstarted : f.started[task]? with
    | some child =>
      refine ⟨.inl rfl, ?_, .same, nofun, nofun, rfl⟩
      intro id hid
      obtain rfl : id = child := List.mem_singleton.1 hid
      exact List.mem_of_getElem? hstarted
    | none => exact ⟨.inl rfl, nofun, .same, nofun, nofun, rfl⟩

/-- Going on behind an open body keeps what a step has to keep. -/
theorem onward_leave (f : Fiber) (frame : Frame) (outer : List Frame) (ending : Ending)
    (hframes : f.frames = frame :: outer) :
    f.Onward
      ({ f with ambient := frame.exit.undo f.ambient, frames := outer }.leave frame ending).1 := by
  obtain ⟨exit, rest⟩ := frame
  -- The level of the fiber is the first one, and behind it are those that it finds outside the
  -- body.
  have hleft : f.levels = f.ambient :: Script.levels (exit.undo f.ambient) outer := by
    rw [levels, hframes, Script.levels]
  match exit, ending with
  | .attempt, .ok () | .scope _, .ok () | .within _ _ _, .error _ | .scope _, .error _
  | .postponed _, .ok () | .postponed _, .error _ =>
    exact ⟨.inl rfl, nofun, .outside hleft, nofun, nofun, rfl⟩
  | .attempt, .error _ | .within _ _ _, .ok () =>
    exact ⟨.inr ⟨_, rfl⟩, nofun, .outside hleft, nofun, nofun, rfl⟩
  | .thread, .ok () => exact ⟨.inl rfl, nofun, .outside hleft, nofun, nofun, rfl⟩
  -- A wait takes the place of the body, which has changed nothing.
  | .thread, .error _ | .whole, _ => exact ⟨.inl rfl, nofun, hleft ▸ .same, nofun, nofun, rfl⟩

/-- The steps of a fiber keep what they have to keep. -/
theorem onward_of_advance? {f f' : Fiber} {request : Request}
    (h : f.advance? = some (f', request)) : f.Onward f' := by
  -- One case for each form of control; those that wait make no step.
  unfold advance? at h
  split at h
  · -- A body that has been run to its end.
    obtain ⟨rfl, -⟩ := Prod.mk.inj (Option.some.inj h)
    exact ⟨.inl rfl, nofun, .same, nofun, nofun, rfl⟩
  · obtain ⟨rfl, -⟩ := Prod.ext_iff.1 (Option.some.inj h)
    exact f.onward_perform _ _
  · split at h
    · rename_i hframes
      obtain ⟨rfl, -⟩ := Prod.mk.inj (Option.some.inj h)
      exact ⟨.inl rfl, nofun, .same, fun _ _ => hframes, nofun, rfl⟩
    · rename_i hframes
      obtain ⟨rfl, -⟩ := Prod.ext_iff.1 (Option.some.inj h)
      exact f.onward_leave _ _ _ hframes
  all_goals cases h

/-- Leaving a body concerns no other fiber. -/
theorem isQuiet_leave (f : Fiber) (frame : Frame) (ending : Ending) :
    (f.leave frame ending).2.isQuiet = true := by
  obtain ⟨exit, rest⟩ := frame
  match exit, ending with
  | .attempt, .ok () | .scope _, .ok () | .within _ _ _, .error _ | .scope _, .error _
  | .postponed _, .ok () | .postponed _, .error _ | .attempt, .error _ | .within _ _ _, .ok ()
  | .thread, .ok () | .thread, .error _ | .whole, _ => rfl

/-- Only the start of fibers and the wait for those that nobody waits for concern others. -/
theorem perform_loud {f : Fiber} {step : Step} {rest : List Step}
    (hloud : (f.perform step rest).2.isQuiet = false) :
    (∃ awaited bodies, step = .fork awaited bodies) ∨ step = .join := by
  cases step with
  | fork awaited bodies => exact .inl ⟨awaited, bodies, rfl⟩
  | join => exact .inr rfl
  | readRaw =>
    -- Both ends of this step are quiet, and so are those of the wait for one task.
    rw [perform] at hloud
    cases hcontext : f.ambient.requireContext <;> simp [hcontext, Request.isQuiet] at hloud
  | await task =>
    rw [perform] at hloud
    cases hstarted : f.started[task]? <;> simp [hstarted, Request.isQuiet] at hloud
  | _ => exact absurd hloud Bool.noConfusion

/-- What concerns other fibers is a step of the script, and the fiber is about to go on behind
it. -/
theorem of_advance?_loud {f f' : Fiber} {request : Request}
    (h : f.advance? = some (f', request)) (hloud : request.isQuiet = false) :
    ∃ step rest, f.control = .running (step :: rest) ∧ f' = { f with control := .running rest } ∧
      ((∃ awaited bodies, step = .fork awaited bodies ∧ request = .fork awaited bodies) ∨
        step = .join ∧ request = .join) := by
  unfold advance? at h
  split at h
  · obtain ⟨-, rfl⟩ := Prod.mk.inj (Option.some.inj h)
    exact absurd hloud Bool.noConfusion
  · rename_i step rest hcontrol
    obtain ⟨rfl, rfl⟩ := Prod.ext_iff.1 (Option.some.inj h)
    rcases perform_loud hloud with ⟨awaited, bodies, rfl⟩ | rfl
    · exact ⟨_, rest, hcontrol, rfl, .inl ⟨awaited, bodies, rfl, rfl⟩⟩
    · exact ⟨_, rest, hcontrol, rfl, .inr ⟨rfl, rfl⟩⟩
  · split at h
    · obtain ⟨-, rfl⟩ := Prod.mk.inj (Option.some.inj h)
      exact absurd hloud Bool.noConfusion
    · obtain ⟨-, rfl⟩ := Prod.ext_iff.1 (Option.some.inj h)
      -- Leaving is always quiet, so it cannot be this.
      rw [isQuiet_leave] at hloud
      exact absurd hloud Bool.noConfusion
  all_goals cases h

/-- The fiber behind the start of others, which it waits for if that is wanted and there are any. -/
def forked (f : Fiber) (awaited : Bool) (children : List Nat) (rest : List Step) : Fiber :=
  { f with
    control := if awaited && !children.isEmpty then .gathering children rest else .running rest
    done := .forked awaited children :: f.done }

/-- The fiber waits for all that it has started, or goes on. -/
theorem control_forked_cases (f : Fiber) (awaited : Bool) (children : List Nat)
    (rest : List Step) :
    awaited = true ∧ children ≠ [] ∧
        (f.forked awaited children rest).control = .gathering children rest ∨
      (f.forked awaited children rest).control = .running rest := by
  unfold forked
  dsimp only
  split
  · rename_i hwaits
    obtain ⟨hawaited, hne⟩ : awaited = true ∧ children ≠ [] := by simpa using hwaits
    exact .inl ⟨hawaited, hne, rfl⟩
  · exact .inr rfl

end Fiber

/-- The numbers of the fibers that are started for some bodies. -/
def newcomers (first : Nat) (bodies : List (List Step)) : List Nat :=
  (List.range bodies.length).map (first + ·)

@[simp]
theorem length_newcomers (first : Nat) (bodies : List (List Step)) :
    (newcomers first bodies).length = bodies.length := by
  rw [newcomers, List.length_map, List.length_range]

theorem mem_newcomers {first id : Nat} {bodies : List (List Step)} :
    id ∈ newcomers first bodies ↔ first ≤ id ∧ id < first + bodies.length := by
  simp only [newcomers, List.mem_map, List.mem_range]
  constructor
  · -- The `k`-th newcomer has the number `first + k`.
    rintro ⟨k, hk, rfl⟩
    omega
  · rintro ⟨hfirst, hlast⟩
    exact ⟨id - first, by omega, by omega⟩

/-- What a fiber does that learns how one has ended that it waits for. -/
inductive Hears (child : Nat) : Ending → Control → Control → Prop where
  | failure {failure : Failure} {control : Control} (awaited : child ∈ control.awaits) :
    Hears child (.error failure) control (.leaving (.error failure))
  | joined (rest : List Step) : Hears child (.ok ()) (.joining child rest) (.running rest)
  | last {children : List Nat} {rest : List Step} (awaited : child ∈ children)
      (left : children.erase child = []) :
    Hears child (.ok ()) (.gathering children rest) (.running rest)
  | next {children : List Nat} {rest : List Step} (awaited : child ∈ children)
      (left : children.erase child ≠ []) :
    Hears child (.ok ()) (.gathering children rest) (.gathering (children.erase child) rest)

theorem Hears.not_ended {child : Nat} {ending ending' : Ending} {before after : Control}
    (h : Hears child ending before after) : after ≠ .ended ending' := by
  cases h <;> exact Control.noConfusion

/-- No further fibers are waited for. -/
theorem Hears.awaits {child : Nat} {ending : Ending} {before after : Control}
    (h : Hears child ending before after) {id : Nat} (hid : id ∈ after.awaits) :
    id ∈ before.awaits := by
  cases h with
  | failure | joined | last => exact absurd hid List.not_mem_nil
  | next => exact List.mem_of_mem_erase hid

/-- What a fiber of some fibers can be made of in a turn, and the fibers that it starts. -/
inductive Act (fibers : List Fiber) (i : Nat) (f : Fiber) : Fiber → List Fiber → Prop where
  /-- The fiber makes a step that concerns no other one. -/
  | step {f' : Fiber} {request : Request} (advance : f.advance? = some (f', request))
      (quiet : request.isQuiet = true) : Act fibers i f f' []
  /-- The fiber starts others in what surrounds it. -/
  | fork {awaited : Bool} {bodies : List (List Step)} {rest : List Step}
      (control : f.control = .running (.fork awaited bodies :: rest)) :
    Act fibers i f (f.forked awaited (newcomers fibers.length bodies) rest)
      (bodies.map (Fiber.start f.ambient (if awaited then .starter i else .anyone)))
  /-- The fiber looks for one that nobody waits for. -/
  | join {control : Control} {rest : List Step} (joins : f.control = .running (.join :: rest)) :
    Act fibers i f { f with control := control } []
  /-- The fiber learns how one has ended that it waits for. -/
  | hear {child : Nat} {g : Fiber} {ending : Ending} {control : Control}
      (other : fibers[child]? = some g) (ended : g.control = .ended ending)
      (hears : Hears child ending f.control control) :
    Act fibers i f { f with control := control } []

/-- What a turn can make of the fibers of a pool. -/
inductive Move (fibers : List Fiber) : List Fiber → Prop where
  | idle : Move fibers fibers
  | act {i : Nat} {f f' : Fiber} {new : List Fiber} (fiber : fibers[i]? = some f)
      (act : Act fibers i f f' new) : Move fibers (fibers.set i f' ++ new)

/-- The move of a fiber that starts no others. -/
theorem Move.alone {fibers : List Fiber} {i : Nat} {f f' : Fiber} (hf : fibers[i]? = some f)
    (hact : Act fibers i f f' []) : Move fibers (fibers.set i f') := by
  have hmove := Move.act hf hact
  rwa [List.append_nil] at hmove

namespace Pool

theorem ending?_eq_some {p : Pool} {id : Nat} {ending : Ending} (h : p.ending? id = some ending) :
    ∃ f, p.fibers[id]? = some f ∧ f.control = .ended ending := by
  obtain ⟨f, hf, hending⟩ := Option.bind_eq_some_iff.1 h
  refine ⟨f, hf, ?_⟩
  unfold Fiber.ending? at hending
  split at hending
  · rename_i hcontrol
    rw [hcontrol, Option.some.inj hending]
  · cases hending

/-- A step of a fiber is a move of it, whatever it asks of the others. -/
theorem act_answer {p : Pool} {id : Nat} {f f' : Fiber} {request : Request}
    (h : f.advance? = some (f', request)) :
    ∃ f'' new, Act p.fibers id f f'' new ∧
      (p.answer id f' request).pool.fibers = p.fibers.set id f'' ++ new := by
  -- A quiet request leaves the other fibers alone.
  cases hquiet : request.isQuiet with
  | true =>
    refine ⟨f', [], .step h hquiet, ?_⟩
    cases request with
    | none | pause | announce => exact (List.append_nil _).symm
    | fork | join => cases hquiet
  | false =>
    obtain ⟨step, rest, hcontrol, rfl, ⟨awaited, bodies, rfl, rfl⟩ | ⟨rfl, rfl⟩⟩ :=
      Fiber.of_advance?_loud h hquiet
    · refine ⟨_, _, .fork hcontrol, ?_⟩
      -- The number of newcomers is that of the bodies, so either both are empty or none is.
      have hempty : (newcomers p.fibers.length bodies).isEmpty = bodies.isEmpty := by
        cases bodies <;> simp [newcomers, List.range_succ]
      rw [Fiber.forked, hempty]
      rfl
    · show ∃ f'' new, Act p.fibers id f f'' new ∧
        (p.join id { f with control := .running rest }).pool.fibers = p.fibers.set id f'' ++ new
      unfold join
      -- Whether there is a task that nobody waits for only decides about the control.
      cases p.unclaimed with
      | nil => exact ⟨_, [], .join hcontrol, (List.append_nil _).symm⟩
      | cons child others => exact ⟨_, [], .join hcontrol, (List.append_nil _).symm⟩

theorem move_resume (p : Pool) (id : Nat) : Move p.fibers (p.resume id).pool.fibers := by
  unfold resume
  -- Idle unless the fiber exists, and either makes a step or waits for one that has ended.
  split
  · exact .idle
  · rename_i f hf
    split
    · rename_i hadvance
      obtain ⟨f'', new, hact, hpool⟩ := p.act_answer hadvance
      exact hpool ▸ .act hf hact
    · rename_i child rest hcontrol hadvance
      split
      · exact .idle
      · rename_i hending
        obtain ⟨g, hg, hover⟩ := ending?_eq_some hending
        exact .alone hf (.hear hg hover (hcontrol ▸ .joined rest))
      · rename_i failure hending
        obtain ⟨g, hg, hover⟩ := ending?_eq_some hending
        exact .alone hf (.hear hg hover (.failure (hcontrol ▸ List.mem_singleton_self child)))
    · exact .idle

theorem move_report (p : Pool) (child : Nat) : Move p.fibers (p.report child).pool.fibers := by
  unfold report
  -- Idle unless the fiber has ended, and its starter still waits for it among others.
  split
  · rename_i hg
    split
    · rename_i f hf
      split
      · rename_i children rest hcontrol
        split
        · rename_i hchild
          split
          · exact .alone hf (.hear hg rfl (.failure (hcontrol ▸ hchild)))
          · dsimp only
            split
            · rename_i hleft
              exact .alone hf (.hear hg rfl (hcontrol ▸ .last hchild (List.isEmpty_iff.1 hleft)))
            · rename_i hleft
              exact .alone hf
                (.hear hg rfl (hcontrol ▸ .next hchild fun h => hleft (List.isEmpty_iff.2 h)))
        · exact .idle
      · exact .idle
    · exact .idle
  · exact .idle

/-- Every turn is a move. -/
theorem move_take (p : Pool) (turn : Turn) : Move p.fibers (p.take turn).pool.fibers := by
  cases turn with
  | resume id => exact p.move_resume id
  | report id => exact p.move_report id
  | stop => exact .idle

end Pool

/-! ## Where the fibers are after a move -/

section Lookup

variable {fibers new : List Fiber} {i k : Nat} {f f' : Fiber}

/-- A fiber that was there is still there, in its new state if it is the one that moved. -/
theorem getElem?_set_append (hf : fibers[k]? = some f) :
    (fibers.set i f' ++ new)[k]? = some (if i = k then f' else f) := by
  -- The new fibers stand behind the old ones, and setting one leaves their number.
  have hk := (List.getElem?_eq_some_iff.1 hf).1
  rw [List.getElem?_append_left (by rwa [List.length_set]), List.getElem?_set]
  split
  · rename_i hik
    rw [if_pos (hik ▸ hk)]
  · exact hf

/-- What holds of a fiber holds of it still, if it goes on to hold of the one that moved. -/
theorem exists_getElem?_set_append {P : Fiber → Prop} (hf : fibers[i]? = some f) (hP : P f → P f')
    (h : ∃ g, fibers[k]? = some g ∧ P g) :
    ∃ g, (fibers.set i f' ++ new)[k]? = some g ∧ P g := by
  obtain ⟨g, hg, hholds⟩ := h
  refine ⟨_, getElem?_set_append hg, ?_⟩
  split
  · rename_i hik
    subst hik
    obtain rfl : f = g := Option.some.inj (hf.symm.trans hg)
    exact hP hholds
  · exact hholds

theorem getElem?_set_append_new (m : Nat) :
    (fibers.set i f' ++ new)[fibers.length + m]? = new[m]? := by
  rw [List.getElem?_append_right (by simp), List.length_set, Nat.add_sub_cancel_left]

/-- A fiber that is there is the one that moved, another one that was there, or a new one. -/
theorem of_getElem?_set_append (h : (fibers.set i f' ++ new)[k]? = some f) :
    i = k ∧ f = f' ∨ i ≠ k ∧ fibers[k]? = some f ∨
      ∃ m, k = fibers.length + m ∧ new[m]? = some f := by
  -- A place among the old ones, or one that lies behind them.
  by_cases hk : k < fibers.length
  · rw [getElem?_set_append (List.getElem?_eq_getElem hk)] at h
    split at h
    · rename_i hik
      exact .inl ⟨hik, (Option.some.inj h).symm⟩
    · rename_i hik
      exact .inr (.inl ⟨hik, (List.getElem?_eq_getElem hk).trans h⟩)
  · obtain ⟨m, rfl⟩ := Nat.exists_eq_add_of_le (Nat.le_of_not_lt hk)
    rw [getElem?_set_append_new] at h
    exact .inr (.inr ⟨m, rfl, h⟩)

end Lookup

/-! ## What surrounds a fiber is found again -/

/-- A fiber moves at most one body further in or out. -/
theorem Act.adjacent {fibers new : List Fiber} {i : Nat} {f f' : Fiber}
    (h : Act fibers i f f' new) : Adjacent f.levels f'.levels := by
  cases h with
  | step hadvance => exact (Fiber.onward_of_advance? hadvance).levels
  | fork | join | hear => exact .same

theorem Move.adjacent {fibers fibers' : List Fiber} (h : Move fibers fibers') {i : Nat} {f : Fiber}
    (hf : fibers[i]? = some f) :
    ∃ f', fibers'[i]? = some f' ∧ Adjacent f.levels f'.levels := by
  cases h with
  | idle => exact ⟨f, hf, .same⟩
  | @act j g g' new hg hact =>
    refine ⟨_, getElem?_set_append hf, ?_⟩
    -- The moved fiber is one level away at most; every other one stands still.
    split
    · rename_i hij
      subst hij
      obtain rfl : f = g := Option.some.inj (hf.symm.trans hg)
      exact hact.adjacent
    · exact .same

namespace Pool

theorem play_cons (p : Pool) (turn : Turn) (schedule : List Turn) :
    p.play (turn :: schedule) = (p.take turn).pool.play schedule := rfl

/-- The number of open bodies of a fiber. -/
def depth (p : Pool) (i : Nat) : Nat := p.fibers[i]?.elim 0 fun f => f.frames.length

theorem depth_of_getElem? {p : Pool} {i : Nat} {f : Fiber} (h : p.fibers[i]? = some f) :
    p.depth i = f.frames.length := by
  rw [depth, h]
  rfl

/-- Levels that a fiber never leaves are there as long. -/
theorem suffix_levels_play {p : Pool} {i : Nat} {f : Fiber} {kept : List Ambient}
    (extent : List Turn) (hf : p.fibers[i]? = some f) (hkept : kept <:+ f.levels)
    (hdeep : ∀ moment, moment <+: extent → kept.length ≤ (p.play moment).depth i + 1) :
    ∃ f', (p.play extent).fibers[i]? = some f' ∧ kept <:+ f'.levels := by
  -- Over the turns, for every pool and every state of the fiber that has the levels.
  induction extent generalizing p f with
  | nil => exact ⟨f, hf, hkept⟩
  | cons turn rest ih =>
    obtain ⟨g, hg, hadjacent⟩ := (p.move_take turn).adjacent hf
    have hlength : kept.length ≤ g.levels.length := by
      have hdepth := hdeep [turn] (by simp)
      rw [play_cons, play, List.foldl_nil, depth_of_getElem? hg] at hdepth
      rwa [Fiber.levels, length_levels]
    -- What is kept is not the one level that the turn may leave.
    refine ih hg (hadjacent.suffix hkept hlength) fun moment hmoment => ?_
    exact hdeep (turn :: moment) (by simpa using hmoment)

/-- However its bodies end, and whatever other fibers do meanwhile, a fiber that has left the bodies
that it enters from now on, and none of those that are open now, finds again what surrounds it. -/
def Restores (p : Pool) : Prop :=
  ∀ (i : Nat) (f f' : Fiber) (extent : List Turn), p.fibers[i]? = some f →
    (p.play extent).fibers[i]? = some f' →
    (∀ moment, moment <+: extent → p.depth i ≤ (p.play moment).depth i) →
    (p.play extent).depth i = p.depth i → f'.ambient = f.ambient

theorem restores (p : Pool) : p.Restores := by
  intro i f f' extent hf hf' hdeep hback
  rw [depth_of_getElem? hf] at hdeep hback
  -- The levels of the fiber now, all of them, are what is never left.
  obtain ⟨g, hg, hkept⟩ := suffix_levels_play extent hf (List.suffix_refl f.levels)
    fun moment hmoment => by
      rw [Fiber.levels, length_levels]
      exact Nat.succ_le_succ (hdeep moment hmoment)
  obtain rfl : f' = g := Option.some.inj (hf'.symm.trans hg)
  -- As many levels as before, all of them kept, are the same levels.
  rw [depth_of_getElem? hf'] at hback
  have hlevels : f.levels = f'.levels :=
    hkept.eq_of_length (by simp [Fiber.levels, hback])
  have hhead := congrArg List.head? hlevels
  simpa [Fiber.levels, head?_levels, eq_comm] using hhead

end Pool

end RpcContract.Script
