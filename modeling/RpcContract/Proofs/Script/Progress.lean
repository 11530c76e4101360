import RpcContract.Proofs.Script.Order

/-!
# Progress

Every move brings the fibers closer to their ends, and there is a move to be made until all have
ended: the last of the fibers that have not ended can only wait for later ones, and these are over.
-/

namespace RpcContract.Script

variable {fibers new : List Fiber} {i : Nat} {f f' : Fiber}

/-- A measure of the turns that a fiber takes in what it is about to do. -/
def Control.size : Control → Nat
  | .running steps => sizeOfBody steps + 1
  | .leaving _ => 1
  | .gathering children rest => children.length + sizeOfBody rest + 1
  | .joining _ rest => sizeOfBody rest + 2
  | .ended _ => 0

/-- A measure of the turns that follow behind an open body. -/
def Frame.size (frame : Frame) : Nat :=
  match frame.exit with
  | .attempt | .within _ _ _ | .scope _ | .postponed _ => sizeOfBody frame.rest + 1
  | .thread | .whole => sizeOfBody frame.rest + 4

/-- A measure of the turns that follow behind some open bodies. -/
def sizeOfFrames : List Frame → Nat
  | [] => 0
  | frame :: outer => frame.size + sizeOfFrames outer

/-- A measure of the turns that a fiber takes. -/
def Fiber.size (f : Fiber) : Nat := f.control.size + sizeOfFrames f.frames

/-- A measure of the turns that some fibers take. -/
def sizeOfFibers : List Fiber → Nat
  | [] => 0
  | f :: rest => f.size + sizeOfFibers rest

theorem sizeOfFibers_append (fibers new : List Fiber) :
    sizeOfFibers (fibers ++ new) = sizeOfFibers fibers + sizeOfFibers new := by
  induction fibers with
  | nil => exact (Nat.zero_add _).symm
  | cons f rest ih => rw [List.cons_append, sizeOfFibers, sizeOfFibers, ih, Nat.add_assoc]

theorem sizeOfBody_pos (body : List Step) : 0 < sizeOfBody body := by
  induction body with
  | nil => exact Nat.one_pos
  | cons step rest ih =>
    rw [sizeOfBody]
    omega

/-- A fiber in the place of another one counts in its stead. -/
theorem sizeOfFibers_set (hf : fibers[i]? = some f) :
    sizeOfFibers (fibers.set i f') + f.size = sizeOfFibers fibers + f'.size := by
  induction fibers generalizing i with
  | nil => exact absurd hf (by simp)
  -- At the head the two sizes change places; behind it the rest does by induction.
  | cons first rest ih =>
    cases i with
    | zero =>
      obtain rfl : first = f := by simpa using hf
      simp only [List.set_cons_zero, sizeOfFibers]
      omega
    | succ i =>
      have hrest := ih (i := i) (by simpa using hf)
      simp only [List.set_cons_succ, sizeOfFibers]
      omega

namespace Fiber

/-- A step that concerns no other fiber counts. -/
theorem size_perform (f : Fiber) (step : Step) (rest : List Step)
    (hquiet : (f.perform step rest).2.isQuiet = true) :
    (f.perform step rest).1.size <
      sizeOfBody (step :: rest) + 1 + sizeOfFrames f.frames := by
  have hrest := sizeOfBody_pos rest
  cases step with
  -- A step that opens nothing: the rest is smaller by the size of the step.
  | read | readOrNull | inside | raise | yield =>
    simp only [perform, see, size, Control.size, sizeOfBody, Step.size]
    omega
  | readRaw =>
    rw [perform]
    cases f.ambient.requireContext <;>
      simp only [see, size, Control.size, sizeOfBody, Step.size] <;> omega
  -- A body that is opened is counted within the step, and the frame counts what is behind it.
  | attempt body | within manner v body result | scope v body | thread body =>
    simp only [perform, see, enter, enterScope, size, Control.size, sizeOfBody, Step.size,
      sizeOfFrames, Frame.size]
    omega
  | fork awaited bodies => exact absurd hquiet Bool.false_ne_true
  | await task =>
    rw [perform]
    cases f.started[task]? <;> simp only [size, Control.size, sizeOfBody, Step.size] <;> omega
  | join => exact absurd hquiet Bool.false_ne_true

/-- Leaving a body counts. -/
theorem size_leave (f : Fiber) (frame : Frame) (ending : Ending) :
    (f.leave frame ending).1.size < 1 + (frame.size + sizeOfFrames f.frames) := by
  obtain ⟨exit, rest⟩ := frame
  have hrest := sizeOfBody_pos rest
  match exit, ending with
  -- Behind these the fiber goes on with the rest, or leaves the next body with an ending.
  | .attempt, .ok () | .scope _, .ok () | .attempt, .error _ | .within _ _ _, .ok ()
  | .within _ _ _, .error _ | .scope _, .error _ | .postponed _, .ok () | .postponed _, .error _ =>
    simp only [leave, see, size, Control.size, Frame.size]
    omega
  -- The report of a thread and the wait of a whole script take turns of their own, which their
  -- frames count.
  | .thread, .ok () | .thread, .error _ | .whole, _ =>
    simp only [leave, size, Control.size, Frame.size, sizeOfBody, Step.size, sizeOfFrames]
    omega

/-- Every step that concerns no other fiber counts. -/
theorem size_of_advance? {request : Request} (h : f.advance? = some (f', request))
    (hquiet : request.isQuiet = true) : f'.size < f.size := by
  obtain ⟨ambient, control, frames, done, listener⟩ := f
  match control with
  | .running [] =>
    obtain ⟨rfl, -⟩ := Prod.mk.inj (Option.some.inj h)
    simp only [size, Control.size, sizeOfBody]
    omega
  | .running (step :: rest) =>
    obtain ⟨rfl, rfl⟩ := Prod.ext_iff.1 (Option.some.inj h)
    exact size_perform _ step rest hquiet
  | .leaving ending =>
    cases frames with
    | nil =>
      obtain ⟨rfl, -⟩ := Prod.mk.inj (Option.some.inj h)
      exact Nat.zero_lt_one
    | cons frame outer =>
      obtain ⟨rfl, rfl⟩ := Prod.ext_iff.1 (Option.some.inj h)
      exact size_leave ⟨frame.exit.undo ambient, .leaving ending, outer, done, listener⟩ frame
        ending
  | .gathering _ _ | .joining _ _ | .ended _ => exact absurd h (by simp [advance?])

end Fiber

/-- The bodies of tasks that are started count for them and for the wait for them. -/
theorem sizeOfFibers_start (a : Ambient) (listener : Listener) (bodies : List (List Step)) :
    sizeOfFibers (bodies.map (Fiber.start a listener)) + bodies.length = sizeOfBodies bodies := by
  induction bodies with
  | nil => rfl
  | cons body rest ih =>
    simp only [List.map_cons, sizeOfFibers, List.length_cons, sizeOfBodies, Fiber.size,
      Fiber.start, Control.size, sizeOfFrames] at ih ⊢
    omega

/-- To learn of an end counts. -/
theorem Hears.size_lt {child : Nat} {ending : Ending} {before after : Control}
    (h : Hears child ending before after) : after.size < before.size := by
  -- A failure ends the wait and drops the rest; each other case takes one task off the wait.
  cases h with
  | failure awaited =>
    cases before with
    | gathering children rest | joining other rest =>
      simp only [Control.size]
      have := sizeOfBody_pos rest
      omega
    | running | leaving | ended => exact absurd awaited List.not_mem_nil
  | joined =>
    simp only [Control.size]
    omega
  | last awaited =>
    have hpos := List.length_pos_of_mem awaited
    simp only [Control.size]
    omega
  | next awaited =>
    have hpos := List.length_pos_of_mem awaited
    simp only [Control.size, List.length_erase_of_mem awaited]
    omega

/-- Every move of a fiber counts, that of one that leaves nothing to the schedule. -/
theorem Act.size_lt (h : Act fibers i f f' new)
    (hjoin : ∀ rest, f.control ≠ .running (.join :: rest)) :
    f'.size + sizeOfFibers new < f.size := by
  cases h with
  | step hadvance hquiet => exact Fiber.size_of_advance? hadvance hquiet
  | @fork awaited bodies rest hcontrol =>
    -- What a body counts more than its steps is for the start of the fiber and for hearing of it.
    have hstart := sizeOfFibers_start f.ambient (if awaited then .starter i else .anyone) bodies
    have hforked : (f.forked awaited (newcomers fibers.length bodies) rest).control.size ≤
        bodies.length + sizeOfBody rest + 1 := by
      rcases f.control_forked_cases awaited (newcomers fibers.length bodies) rest with
        ⟨-, -, hwait⟩ | hwait
      · exact Nat.le_of_eq (by rw [hwait, Control.size, length_newcomers])
      · rw [hwait, Control.size]
        omega
    simp only [Fiber.size, hcontrol, Control.size, sizeOfBody, Step.size] at hforked ⊢
    simp only [Fiber.forked] at hforked ⊢
    omega
  | join hjoins => exact absurd hjoins (hjoin _)
  | hear _ _ hhears => exact Nat.add_lt_add_right hhears.size_lt _

/-- A fiber that has ended. -/
def Fiber.IsOver (f : Fiber) : Prop := f.ending?.isSome = true

instance (f : Fiber) : Decidable f.IsOver := inferInstanceAs (Decidable (_ = true))

theorem Fiber.isOver_iff : f.IsOver ↔ ∃ ending, f.control = .ended ending := by
  unfold IsOver ending?
  cases f.control <;> simp

/-- Of the fibers that have not ended one is the last. -/
theorem exists_last (h : ∃ f ∈ fibers, ¬ f.IsOver) :
    ∃ i f, fibers[i]? = some f ∧ ¬ f.IsOver ∧
      ∀ (k : Nat) (g : Fiber), i < k → fibers[k]? = some g → g.IsOver := by
  induction fibers with
  | nil => exact absurd h (by simp)
  | cons first rest ih =>
    -- The last of the rest is the last of all, unless all of the rest are over.
    by_cases hrest : ∃ f ∈ rest, ¬ f.IsOver
    · obtain ⟨i, f, hf, hnot, hlater⟩ := ih hrest
      refine ⟨i + 1, f, hf, hnot, fun k g hk hg => ?_⟩
      cases k with
      | zero => exact absurd hk (Nat.not_lt_zero _)
      | succ k => exact hlater k g (Nat.lt_of_succ_lt_succ hk) hg
    · have hover : ∀ f ∈ rest, f.IsOver := by
        intro f hf
        exact Decidable.byContradiction fun hnot => hrest ⟨f, hf, hnot⟩
      obtain ⟨f, hf, hnot⟩ := h
      rcases List.mem_cons.1 hf with rfl | hf
      · refine ⟨0, f, rfl, hnot, fun k g hk hg => ?_⟩
        cases k with
        | zero => exact absurd hk (Nat.lt_irrefl 0)
        | succ k => exact hover g (List.mem_of_getElem? hg)
      · exact absurd (hover f hf) hnot

namespace Pool

variable {p : Pool}

/-- The turn of a fiber that can make a step is a move of it. -/
theorem act_of_advance? {request : Request} (hf : p.fibers[i]? = some f)
    (h : f.advance? = some (f', request)) :
    ∃ turn f'' new, Act p.fibers i f f'' new ∧
      (p.take turn).pool.fibers = p.fibers.set i f'' ++ new := by
  obtain ⟨f'', new, hact, hpool⟩ := p.act_answer h
  refine ⟨.resume i, f'', new, hact, ?_⟩
  rw [← hpool]
  simp only [take, resume, hf, h]

/-- A fiber that waits for one that has ended can make a move. -/
theorem act_of_joining {child : Nat} {rest : List Step} {g : Fiber} {ending : Ending}
    (hf : p.fibers[i]? = some f) (hcontrol : f.control = .joining child rest)
    (hg : p.fibers[child]? = some g) (hended : g.control = .ended ending) :
    ∃ turn f'' new, Act p.fibers i f f'' new ∧
      (p.take turn).pool.fibers = p.fibers.set i f'' ++ new := by
  have hending : p.ending? child = some ending := by
    simp only [ending?, hg, Option.bind_some, Fiber.ending?, hended]
  have hadvance : f.advance? = none := by simp only [Fiber.advance?, hcontrol]
  -- By the ending of the child: a failure is passed on, and otherwise the script goes on.
  rcases ending with failure | ⟨⟩
  · refine ⟨.resume i, { f with control := .leaving (.error failure) }, [],
      .hear hg hended (.failure (hcontrol ▸ List.mem_singleton_self child)), ?_⟩
    simp [take, resume, hf, hadvance, hcontrol, hending, put]
  · refine ⟨.resume i, { f with control := .running rest }, [],
      .hear hg hended (hcontrol ▸ .joined rest), ?_⟩
    simp [take, resume, hf, hadvance, hcontrol, hending, put]

/-- A fiber that waits for several, of which one has ended that reports to it, can make a move. -/
theorem act_of_gathering {child : Nat} {children : List Nat} {rest : List Step} {g : Fiber}
    {ending : Ending} (hf : p.fibers[i]? = some f)
    (hcontrol : f.control = .gathering children rest) (hchild : child ∈ children)
    (hg : p.fibers[child]? = some g) (hlistener : g.listener = .starter i)
    (hended : g.control = .ended ending) :
    ∃ turn f'' new, Act p.fibers i f f'' new ∧
      (p.take turn).pool.fibers = p.fibers.set i f'' ++ new := by
  obtain ⟨ambient, control, frames, done, listener⟩ := g
  subst hlistener hended
  rcases ending with failure | ⟨⟩
  · refine ⟨.report child, { f with control := .leaving (.error failure) }, [],
      .hear hg rfl (.failure (hcontrol ▸ hchild)), ?_⟩
    simp [take, report, hg, hf, hcontrol, hchild, put]
  · -- The wait is over with the last child.
    by_cases hleft : children.erase child = []
    · refine ⟨.report child, { f with control := .running rest }, [],
        .hear hg rfl (hcontrol ▸ .last hchild hleft), ?_⟩
      simp [take, report, hg, hf, hcontrol, hchild, hleft, put]
    · refine ⟨.report child, { f with control := .gathering (children.erase child) rest }, [],
        .hear hg rfl (hcontrol ▸ .next hchild hleft), ?_⟩
      simp [take, report, hg, hf, hcontrol, hchild, hleft, put]

/-- Where not all fibers have ended there is a move to be made. -/
theorem exists_act (h : Orderly p.fibers) (hrunning : ∃ f ∈ p.fibers, ¬ f.IsOver) :
    ∃ turn i f f' new, p.fibers[i]? = some f ∧ Act p.fibers i f f' new ∧
      (p.take turn).pool.fibers = p.fibers.set i f' ++ new := by
  obtain ⟨i, f, hf, hnot, hlater⟩ := exists_last hrunning
  -- What the last fiber that has not ended waits for comes after it, and so has ended.
  have hover : ∀ id ∈ f.control.awaits, ∃ g ending, p.fibers[id]? = some g ∧
      g.control = .ended ending := by
    intro id hid
    obtain ⟨hlt, hbound⟩ := (h.knows hf).awaits id hid
    obtain ⟨ending, hended⟩ :=
      Fiber.isOver_iff.1 (hlater id _ hlt (List.getElem?_eq_getElem hbound))
    exact ⟨_, ending, List.getElem?_eq_getElem hbound, hended⟩
  suffices hact : ∃ turn f' new, Act p.fibers i f f' new ∧
      (p.take turn).pool.fibers = p.fibers.set i f' ++ new by
    obtain ⟨turn, f', new, hact⟩ := hact
    exact ⟨turn, i, f, f', new, hf, hact⟩
  -- By what the fiber is about to do; a fiber that has ended is not the one that was chosen.
  cases hcontrol : f.control with
  | running steps =>
    cases steps with
    | nil => exact act_of_advance? hf (by rw [Fiber.advance?, hcontrol])
    | cons step rest =>
      have hadvance : f.advance? = some (f.perform step rest) := by rw [Fiber.advance?, hcontrol]
      exact act_of_advance? hf hadvance
  | leaving ending =>
    cases hframes : f.frames with
    | nil => exact act_of_advance? hf (by rw [Fiber.advance?, hcontrol, hframes])
    | cons frame outer =>
      exact act_of_advance? hf (by rw [Fiber.advance?, hcontrol, hframes])
  | gathering children rest =>
    obtain ⟨hne, hreports⟩ := h.gathers hf hcontrol
    -- A wait for several is for some, and whichever is taken has ended.
    obtain ⟨child, others, rfl⟩ := List.exists_cons_of_ne_nil hne
    obtain ⟨g, hg, hlistener⟩ := hreports child List.mem_cons_self
    obtain ⟨g', ending, hg', hended⟩ := hover child (hcontrol ▸ List.mem_cons_self)
    obtain rfl : g = g' := Option.some.inj (hg.symm.trans hg')
    exact act_of_gathering hf hcontrol List.mem_cons_self hg hlistener hended
  | joining child rest =>
    obtain ⟨g, ending, hg, hended⟩ := hover child (hcontrol ▸ List.mem_singleton_self child)
    exact act_of_joining hf hcontrol hg hended
  | ended ending => exact absurd (Fiber.isOver_iff.2 ⟨ending, hcontrol⟩) hnot

/-- Where not all fibers have ended there is a turn that counts. -/
theorem exists_turn (h : Orderly p.fibers) (hjoin : ∀ {i : Nat} {f : Fiber},
      p.fibers[i]? = some f → ∀ rest, f.control ≠ .running (.join :: rest))
    (hrunning : ∃ f ∈ p.fibers, ¬ f.IsOver) :
    ∃ turn, sizeOfFibers (p.take turn).pool.fibers < sizeOfFibers p.fibers := by
  obtain ⟨turn, i, f, f', new, hf, hact, hpool⟩ := exists_act h hrunning
  refine ⟨turn, ?_⟩
  -- The fiber that moved takes the place of what it was, and the new ones are added.
  have hset : sizeOfFibers (p.fibers.set i f') + f.size = sizeOfFibers p.fibers + f'.size :=
    sizeOfFibers_set hf
  have hlt := hact.size_lt (hjoin hf)
  rw [hpool, sizeOfFibers_append]
  omega

end Pool

end RpcContract.Script
