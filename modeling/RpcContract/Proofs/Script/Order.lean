import RpcContract.Proofs.Script.Moves

/-!
# Which fibers a fiber knows

A fiber knows the fibers that it has started, and waits for none but these.  They all come after it,
so that no fibers ever wait for each other, and those that it waits for at once report to it.
-/

namespace RpcContract.Script

variable {fibers new : List Fiber} {i : Nat} {f f' : Fiber}

/-- A fiber speaks only of fibers that come after it. -/
structure Fiber.Knows (f : Fiber) (own count : Nat) : Prop where
  tasks : ∀ deed ∈ f.done, ∀ id ∈ deed.tasks, own < id ∧ id < count
  awaits : ∀ id ∈ f.control.awaits, own < id ∧ id < count

/-- Each fiber knows only later ones, and those that it waits for at once report to it. -/
structure Orderly (fibers : List Fiber) : Prop where
  knows : ∀ {i : Nat} {f : Fiber}, fibers[i]? = some f → f.Knows i fibers.length
  gathers : ∀ {i : Nat} {f : Fiber} {children : List Nat} {rest : List Step},
    fibers[i]? = some f → f.control = .gathering children rest →
      children ≠ [] ∧ ∀ child ∈ children, ∃ g, fibers[child]? = some g ∧ g.listener = .starter i

namespace Fiber

variable {own count count' : Nat}

theorem Knows.mono (h : f.Knows own count) (hle : count ≤ count') : f.Knows own count' :=
  ⟨fun deed hdeed id hid => (h.tasks deed hdeed id hid).imp_right (Nat.lt_of_lt_of_le · hle),
    fun id hid => (h.awaits id hid).imp_right (Nat.lt_of_lt_of_le · hle)⟩

theorem Knows.of_started (h : f.Knows own count) {id : Nat} (hid : id ∈ f.started) :
    own < id ∧ id < count := by
  obtain ⟨deed, hdeed, hid⟩ := List.mem_flatMap.1 hid
  have hdone := h.tasks deed (List.mem_reverse.1 hdeed)
  -- Only tasks that are not waited for at once count as started.
  cases deed with
  | saw => exact absurd hid List.not_mem_nil
  | forked awaited children =>
    cases awaited with
    | false => exact hdone id hid
    | true => exact absurd hid List.not_mem_nil

theorem knows_start (a : Ambient) (listener : Listener) (body : List Step) :
    (start a listener body).Knows own count :=
  ⟨nofun, nofun⟩

/-- A step of a fiber mentions no fiber that it did not know. -/
theorem Knows.onward (h : f.Knows own count) (honward : f.Onward f') : f'.Knows own count := by
  refine ⟨?_, fun id hid => h.of_started (honward.awaits id hid)⟩
  intro deed hdeed
  -- What is done is as before, but for one thing seen, which names no fiber.
  rcases honward.done with hdone | ⟨o, hdone⟩
  · exact h.tasks deed (hdone ▸ hdeed)
  · rw [hdone] at hdeed
    rcases List.mem_cons.1 hdeed with rfl | hdeed
    · exact fun _ hid => absurd hid List.not_mem_nil
    · exact h.tasks deed hdeed

theorem Knows.hears {child : Nat} {ending : Ending} {control : Control} (h : f.Knows own count)
    (hhears : Hears child ending f.control control) :
    Knows { f with control := control } own count :=
  ⟨h.tasks, fun id hid => h.awaits id (hhears.awaits hid)⟩

theorem Knows.forked {awaited : Bool} {children : List Nat} {rest : List Step}
    (h : f.Knows own count) (hchildren : ∀ id ∈ children, own < id ∧ id < count) :
    (f.forked awaited children rest).Knows own count := by
  refine ⟨?_, ?_⟩
  · intro deed hdeed
    rcases List.mem_cons.1 hdeed with rfl | hdeed
    · exact hchildren
    · exact h.tasks deed hdeed
  · intro id hid
    -- The new wait is for the children, and otherwise there is none.
    rcases f.control_forked_cases awaited children rest with ⟨-, -, hcontrol⟩ | hcontrol
    · exact hchildren id (by rwa [hcontrol] at hid)
    · rw [hcontrol] at hid
      exact absurd hid List.not_mem_nil

end Fiber

namespace Act

/-- Nothing that was done is forgotten. -/
theorem mem_done (h : Act fibers i f f' new) {deed : Deed Nat} (hdeed : deed ∈ f.done) :
    deed ∈ f'.done := by
  cases h with
  | step hadvance =>
    rcases (Fiber.onward_of_advance? hadvance).done with hdone | ⟨o, hdone⟩
    · exact hdone ▸ hdeed
    · exact hdone ▸ List.mem_cons_of_mem _ hdeed
  | fork => exact List.mem_cons_of_mem _ hdeed
  | join | hear => exact hdeed

theorem listener_eq (h : Act fibers i f f' new) : f'.listener = f.listener := by
  cases h with
  | step hadvance => exact (Fiber.onward_of_advance? hadvance).listener
  | fork | join | hear => rfl

/-- The fibers that are started are about to run, and known to the one that starts them. -/
theorem of_mem_new (h : Act fibers i f f' new) {m : Nat} {g : Fiber} (hg : new[m]? = some g) :
    (∃ a listener body, g = .start a listener body) ∧
      ∃ deed ∈ f'.done, fibers.length + m ∈ deed.tasks := by
  cases h with
  -- Only a fiber that starts others brings new ones along.
  | step | join | hear => exact absurd hg (by simp)
  | @fork awaited bodies rest =>
    rw [List.getElem?_map] at hg
    obtain ⟨body, hbody, rfl⟩ := Option.map_eq_some_iff.1 hg
    refine ⟨⟨_, _, body, rfl⟩, _, List.mem_cons_self, mem_newcomers.2 ?_⟩
    have hm := (List.getElem?_eq_some_iff.1 hbody).1
    omega

end Act

namespace Orderly

/-- A fiber that moves goes on to know only later fibers. -/
theorem knows_act (h : Orderly fibers) (hf : fibers[i]? = some f) (hact : Act fibers i f f' new)
    (hjoin : ∀ rest, f.control ≠ .running (.join :: rest)) :
    f'.Knows i (fibers.length + new.length) := by
  have hi := (List.getElem?_eq_some_iff.1 hf).1
  have hknows := (h.knows hf).mono (Nat.le_add_right fibers.length new.length)
  cases hact with
  | step hadvance => exact hknows.onward (Fiber.onward_of_advance? hadvance)
  | fork =>
    refine hknows.forked fun id hid => ?_
    -- The newcomers come after all that are there, so after this one as well.
    rw [mem_newcomers] at hid
    rw [List.length_map]
    omega
  | join hcontrol => exact absurd hcontrol (hjoin _)
  | hear _ _ hhears => exact hknows.hears hhears

/-- A fiber that moves goes on to be reported to by all fibers that it waits for at once. -/
theorem gathers_act (h : Orderly fibers) (hf : fibers[i]? = some f) (hact : Act fibers i f f' new)
    (hjoin : ∀ rest, f.control ≠ .running (.join :: rest)) {children : List Nat}
    {rest : List Step} (hcontrol : f'.control = .gathering children rest) :
    children ≠ [] ∧ ∀ child ∈ children,
      ∃ g, (fibers.set i f' ++ new)[child]? = some g ∧ g.listener = .starter i := by
  have hlistener : f.listener = .starter i → f'.listener = .starter i := fun h =>
    hact.listener_eq.trans h
  cases hact with
  -- A step by itself begins no wait for several.
  | step hadvance => exact absurd hcontrol ((Fiber.onward_of_advance? hadvance).alone _ _)
  | @fork awaited bodies after =>
    rcases f.control_forked_cases awaited (newcomers fibers.length bodies) after with
      ⟨rfl, hne, hforked⟩ | hforked
    · obtain ⟨rfl, -⟩ := Control.gathering.inj (hforked.symm.trans hcontrol)
      refine ⟨hne, fun child hchild => ?_⟩
      -- The child is the `m`-th newcomer and reports to the one that started it.
      obtain ⟨m, rfl⟩ := Nat.exists_eq_add_of_le (mem_newcomers.1 hchild).1
      have hm : m < bodies.length := Nat.lt_of_add_lt_add_left (mem_newcomers.1 hchild).2
      refine ⟨.start f.ambient (.starter i) bodies[m], ?_, rfl⟩
      rw [getElem?_set_append_new, List.getElem?_map, List.getElem?_eq_getElem hm]
      rfl
    · cases hforked.symm.trans hcontrol
  | join hjoins => exact absurd hjoins (hjoin _)
  | hear _ _ hhears =>
    have hcontrol' : _ = Control.gathering children rest := hcontrol
    subst hcontrol'
    generalize hbefore : f.control = before at hhears
    -- A wait goes on only where something of it is left.
    cases hhears with
    | @next before _ hchild hleft =>
      refine ⟨hleft, fun child hmem => ?_⟩
      have hreports := (h.gathers hf hbefore).2 child (List.mem_of_mem_erase hmem)
      exact exists_getElem?_set_append hf hlistener hreports

/-- Every move keeps the order, where no fiber looks for others that it does not know. -/
theorem move {fibers' : List Fiber} (h : Orderly fibers) (hmove : Move fibers fibers')
    (hjoin : ∀ {i : Nat} {f : Fiber}, fibers[i]? = some f →
      ∀ rest, f.control ≠ .running (.join :: rest)) : Orderly fibers' := by
  cases hmove with
  | idle => exact h
  | @act i f f' new hf hact =>
    constructor
    · intro k g hg
      rw [List.length_append, List.length_set]
      -- The fiber that moved, another old one, or a new one, which is about to run and waits for
      -- nobody.
      rcases of_getElem?_set_append hg with ⟨rfl, rfl⟩ | ⟨-, hg'⟩ | ⟨m, rfl, hg'⟩
      · exact h.knows_act hf hact (hjoin hf)
      · exact (h.knows hg').mono (Nat.le_add_right _ _)
      · obtain ⟨⟨a, listener, body, rfl⟩, -⟩ := hact.of_mem_new hg'
        exact Fiber.knows_start a listener body
    · intro k g children rest hg hcontrol
      rcases of_getElem?_set_append hg with ⟨rfl, rfl⟩ | ⟨-, hg'⟩ | ⟨m, rfl, hg'⟩
      · exact h.gathers_act hf hact (hjoin hf) hcontrol
      · obtain ⟨hne, hreports⟩ := h.gathers hg' hcontrol
        refine ⟨hne, fun child hchild => ?_⟩
        -- The fiber that moves may be one of those that report; to whom it reports stays.
        exact exists_getElem?_set_append hf hact.listener_eq.trans (hreports child hchild)
      · obtain ⟨⟨a, listener, body, rfl⟩, -⟩ := hact.of_mem_new hg'
        cases hcontrol

end Orderly

end RpcContract.Script
