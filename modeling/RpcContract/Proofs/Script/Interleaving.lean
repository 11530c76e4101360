import RpcContract.Proofs.Script.Account
import RpcContract.Proofs.Script.Progress

/-!
# Scripts under every interleaving

Any number of scripts run at once as the fibers of one pool, and take turns in any order.  Whatever
the order, every fiber does what the script means that it was started with, in the context that
surrounded the place where it was started: what it has done is always the beginning of that, and all
of it in the end.
-/

namespace RpcContract.Script

open Meaning

variable {roots : List Birth} {birth : Nat → Birth} {fibers : List Fiber}

/-- The fiber that is about to run a body in a context. -/
def Birth.fiber (b : Birth) : Fiber := .start ⟨b.context, .outside⟩ .anyone b.body

/-- The pool of some scripts that are about to run. -/
def Pool.ofBirths (roots : List Birth) : Pool := ⟨roots.map Birth.fiber, []⟩

/-- A fiber does what it was started with means, as far as it has come. -/
structure Fiber.Accounts (birth : Nat → Birth) (b : Birth) (f : Fiber) : Prop where
  account : f.account birth = b.meaning
  settled : b.meaning.settled
  outermost : ∃ a, a.context = b.context ∧ [a] <:+ f.levels
  closed : ∀ ending, f.control = .ended ending → f.frames = []

/-- All fibers do what they were started with means. -/
structure Follows (roots : List Birth) (birth : Nat → Birth) (fibers : List Fiber) : Prop where
  orderly : Orderly fibers
  present : roots.length ≤ fibers.length
  own : ∀ {i : Nat} {b : Birth}, roots[i]? = some b → birth i = b
  /-- Every other fiber was started by one of the fibers. -/
  others : ∀ i < fibers.length, roots.length ≤ i →
    ∃ (j : Nat) (f : Fiber), fibers[j]? = some f ∧ ∃ deed ∈ f.done, i ∈ deed.tasks
  fiber : ∀ {i : Nat} {f : Fiber}, fibers[i]? = some f → f.Accounts birth (birth i)

namespace Fiber

/-- A fiber that is about to run a body accounts for it. -/
theorem accounts_start (birth : Nat → Birth) {b : Birth} {a : Ambient}
    (listener : Listener) (ha : a.context = b.context) (hsettled : b.meaning.settled) :
    (start a listener b.body).Accounts birth b where
  account := by
    simp only [account, accountOf, trail, start, unwind, next, Control.meaning, ha]
    exact behind_nil _
  settled := hsettled
  outermost := ⟨a, ha, List.suffix_refl _⟩
  closed := nofun

variable {f f' : Fiber} {b : Birth}

theorem Accounts.settled_account (h : f.Accounts birth b) : (f.account birth).settled :=
  h.account ▸ h.settled

/-- A fiber that has ended has done everything that it was started for, and has found the context
again that it was started in. -/
theorem Accounts.of_ended (h : f.Accounts birth b) {ending : Ending}
    (hended : f.control = .ended ending) :
    f.trail birth = b.meaning.deeds ∧ b.meaning.ending = ending ∧
      f.ambient.context = b.context := by
  have hframes := h.closed ending hended
  have haccount := h.account
  simp only [Fiber.account, accountOf, hframes, unwind, next, hended, Control.meaning] at haccount
  refine ⟨?_, ?_, ?_⟩
  · simp [← haccount, behind, ends]
  · simp [← haccount, behind, ends]
  · -- No frame is left, so the level that is outermost is the only one.
    obtain ⟨a, ha, hsuffix⟩ := h.outermost
    rw [levels, hframes] at hsuffix
    have hsame := hsuffix.eq_of_length rfl
    rw [← ha, (List.cons.inj hsame).1]

/-- What a fiber has done is the beginning of what it was started for. -/
theorem Accounts.trail_begins (h : f.Accounts birth b) : f.trail birth <+: b.meaning.deeds := by
  rw [← h.account]
  exact List.prefix_append _ _

/-- A fiber that leaves nothing to the schedule does not look for fibers that nobody waits for. -/
theorem Accounts.not_join (h : f.Accounts birth b) (rest : List Step) :
    f.control ≠ .running (.join :: rest) := by
  intro hcontrol
  have hnext := settled_next h.settled_account
  -- Leaving the order to the schedule is what settled meanings exclude.
  simp only [next, hcontrol, Control.meaning, bodyMeaning, Step.meaning] at hnext
  exact hnext.1

/-- What a fiber does is not changed by others that it does not know. -/
theorem Accounts.congr {birth' : Nat → Birth} {own count : Nat} (h : f.Accounts birth b)
    (hknows : f.Knows own count) (hsame : ∀ id < count, birth id = birth' id) :
    f.Accounts birth' b :=
  ⟨(account_congr hknows hsame).symm.trans h.account, h.settled, h.outermost, h.closed⟩

end Fiber

/-! ## What every move keeps -/

/-- What fibers were started with, where further ones have been started. -/
def extendBirths (birth : Nat → Birth) (first : Nat) (births : List Birth) (id : Nat) : Birth :=
  if id < first then birth id else births[id - first]?.getD (birth id)

theorem extendBirths_of_lt {first : Nat} (births : List Birth) {id : Nat} (h : id < first) :
    extendBirths birth first births id = birth id := if_pos h

theorem extendBirths_add (birth : Nat → Birth) (first : Nat) {births : List Birth} {k : Nat}
    {b : Birth} (h : births[k]? = some b) : extendBirths birth first births (first + k) = b := by
  rw [extendBirths, if_neg (by omega), Nat.add_sub_cancel_left, h, Option.getD_some]

theorem map_extendBirths (birth : Nat → Birth) (first : Nat) (context : Option Value)
    (bodies : List (List Step)) :
    (newcomers first bodies).map (extendBirths birth first (bodies.map (Birth.mk context))) =
      bodies.map (Birth.mk context) := by
  -- The `k`-th newcomer was started with the `k`-th body.
  refine List.ext_getElem (by simp) fun k hk hk' => ?_
  simp only [newcomers, List.getElem_map, List.getElem_range]
  exact extendBirths_add birth first ((List.getElem?_eq_getElem hk').trans (by simp))

/-- The outermost level of a fiber is never left. -/
theorem Fiber.Accounts.outermost_act {f f' : Fiber} {b : Birth} {new : List Fiber} {i : Nat}
    (h : f.Accounts birth b) (hact : Act fibers i f f' new) :
    ∃ a, a.context = b.context ∧ [a] <:+ f'.levels := by
  obtain ⟨a, ha, hsuffix⟩ := h.outermost
  refine ⟨a, ha, hact.adjacent.suffix hsuffix ?_⟩
  -- There is always a level below all frames, so the outermost one is not among those that are
  -- left.
  rw [Fiber.levels, length_levels]
  exact Nat.le_add_left 1 _

theorem Fiber.Accounts.closed_act {f f' : Fiber} {b : Birth} {new : List Fiber} {i : Nat}
    (h : f.Accounts birth b) (hact : Act fibers i f f' new) :
    ∀ ending, f'.control = .ended ending → f'.frames = [] := by
  intro ending hended
  -- Each way to move, and where it leads: only a step by itself can end a fiber.
  cases hact with
  | step hadvance => exact (onward_of_advance? hadvance).closed ending hended
  | @fork awaited bodies rest =>
    rcases f.control_forked_cases awaited (newcomers fibers.length bodies) rest with
      ⟨-, -, hcontrol⟩ | hcontrol
    · cases hcontrol.symm.trans hended
    · cases hcontrol.symm.trans hended
  | join hjoin => exact absurd hjoin (h.not_join _)
  | hear _ _ hhears => exact absurd hended hhears.not_ended

/-- A fiber that moves goes on as it was started for, and so do the fibers that it starts. -/
theorem Follows.act (h : Follows roots birth fibers) {i : Nat} {f f' : Fiber} {new : List Fiber}
    (hf : fibers[i]? = some f) (hact : Act fibers i f f' new) :
    ∃ birth', (∀ id < fibers.length, birth id = birth' id) ∧ f'.Accounts birth' (birth i) ∧
      ∀ (m : Nat) (g : Fiber), new[m]? = some g →
        g.Accounts birth' (birth' (fibers.length + m)) := by
  have haccounts := h.fiber hf
  have houtermost := haccounts.outermost_act hact
  have hclosed := haccounts.closed_act hact
  -- A new table of births is needed only where fibers are started.
  cases hact with
  | step hadvance hquiet =>
    have haccount := Fiber.account_of_advance? hadvance hquiet haccounts.settled_account
    exact ⟨birth, fun _ _ => rfl,
      ⟨haccount.trans haccounts.account, haccounts.settled, houtermost, hclosed⟩, nofun⟩
  | @fork awaited bodies rest hcontrol =>
    let births := bodies.map (Birth.mk f.ambient.context)
    let birth' := extendBirths birth fibers.length births
    have hsame : ∀ id < fibers.length, birth id = birth' id :=
      fun id hid => (extendBirths_of_lt births hid).symm
    -- The fiber that starts them does not know the new ones yet.
    have hbefore := haccounts.congr (h.orderly.knows hf) hsame
    obtain ⟨haccount, hsettled⟩ := Fiber.account_forked hcontrol
      (map_extendBirths birth fibers.length f.ambient.context bodies) hbefore.settled_account
    refine ⟨birth', hsame,
      ⟨haccount.trans hbefore.account, haccounts.settled, houtermost, hclosed⟩, ?_⟩
    intro m g hg
    rw [List.getElem?_map] at hg
    obtain ⟨body, hbody, rfl⟩ := Option.map_eq_some_iff.1 hg
    have hm := (List.getElem?_eq_some_iff.1 hbody).1
    have hbirth : birth' (fibers.length + m) = ⟨f.ambient.context, body⟩ :=
      extendBirths_add birth fibers.length (by rw [List.getElem?_map, hbody]; rfl)
    have hmeaning := hsettled (fibers.length + m) (mem_newcomers.2 (by omega))
    rw [hbirth]
    exact Fiber.accounts_start birth' _ rfl (hbirth ▸ hmeaning)
  | join hjoin => exact absurd hjoin (haccounts.not_join _)
  | hear hg hended hhears =>
    have hending := ((h.fiber hg).of_ended hended).2.1
    have haccount := Fiber.account_of_hears hhears hending haccounts.settled_account
    exact ⟨birth, fun _ _ => rfl,
      ⟨haccount.trans haccounts.account, haccounts.settled, houtermost, hclosed⟩, nofun⟩

/-- Every move leaves all fibers with what they were started for. -/
theorem Follows.move (h : Follows roots birth fibers) {fibers' : List Fiber}
    (hmove : Move fibers fibers') : ∃ birth', Follows roots birth' fibers' := by
  -- First the fiber that moved, then the others, then the new ones.
  have horderly := h.orderly.move hmove fun hf => (h.fiber hf).not_join
  cases hmove with
  | idle => exact ⟨birth, h⟩
  | @act i f f' new hf hact =>
    obtain ⟨birth', hsame, hf', hnew⟩ := h.act hf hact
    have hi := (List.getElem?_eq_some_iff.1 hf).1
    refine ⟨birth', horderly, ?_, ?_, ?_, ?_⟩
    · rw [List.length_append, List.length_set]
      exact Nat.le_trans h.present (Nat.le_add_right _ _)
    · intro k b hb
      -- The fibers that were there first stay so, since `roots` is not longer than the pool.
      have hk := Nat.lt_of_lt_of_le (List.getElem?_eq_some_iff.1 hb).1 h.present
      exact (hsame k hk).symm.trans (h.own hb)
    · intro k hk hroots
      rw [List.length_append, List.length_set] at hk
      by_cases hold : k < fibers.length
      · obtain ⟨j, hstarter⟩ := h.others k hold hroots
        refine ⟨j, exists_getElem?_set_append hf ?_ hstarter⟩
        rintro ⟨deed, hdeed, hmem⟩
        exact ⟨deed, hact.mem_done hdeed, hmem⟩
      · -- A new fiber stands in the deed of the one that moved.
        obtain ⟨m, rfl⟩ := Nat.exists_eq_add_of_le (Nat.le_of_not_lt hold)
        have hm : m < new.length := by omega
        obtain ⟨-, hdeed⟩ := hact.of_mem_new (List.getElem?_eq_getElem hm)
        exact ⟨i, f', (getElem?_set_append hf).trans (by rw [if_pos rfl]), hdeed⟩
    · intro k g hg
      -- The fiber is the one that moved, another old one, or a new one.
      rcases of_getElem?_set_append hg with ⟨rfl, rfl⟩ | ⟨-, hg'⟩ | ⟨m, rfl, hg'⟩
      · rw [← hsame i hi]
        exact hf'
      · rw [← hsame k (List.getElem?_eq_some_iff.1 hg').1]
        exact (h.fiber hg').congr (h.orderly.knows hg') hsame
      · exact hnew m g hg'

/-- Scripts that are about to run have done nothing of what they mean. -/
theorem follows_ofBirths (hsettled : ∀ b ∈ roots, b.meaning.settled) :
    ∃ birth, Follows roots birth (Pool.ofBirths roots).fibers := by
  have hfiber : ∀ {i : Nat} {f : Fiber}, (Pool.ofBirths roots).fibers[i]? = some f →
      ∃ b, roots[i]? = some b ∧ f = b.fiber := by
    intro i f hf
    obtain ⟨b, hb, hbf⟩ := Option.map_eq_some_iff.1 (List.getElem?_map.symm.trans hf)
    exact ⟨b, hb, hbf.symm⟩
  -- The first fibers are started with the scripts, and there are no others yet, so that any births
  -- will do for these.
  refine ⟨fun i => roots[i]?.getD ⟨none, []⟩, ⟨?_, ?_⟩, ?_, ?_, ?_, ?_⟩
  · intro i f hf
    obtain ⟨b, -, rfl⟩ := hfiber hf
    exact Fiber.knows_start _ _ _
  · intro i f children rest hf hcontrol
    obtain ⟨b, -, rfl⟩ := hfiber hf
    cases hcontrol
  · exact Nat.le_of_eq (List.length_map _).symm
  · intro i b hb
    rw [hb, Option.getD_some]
  · intro i hi hroots
    rw [Pool.ofBirths, List.length_map] at hi
    omega
  · intro i f hf
    obtain ⟨b, hb, rfl⟩ := hfiber hf
    rw [hb, Option.getD_some]
    exact Fiber.accounts_start _ _ rfl (hsettled b (List.mem_of_getElem? hb))

/-- Every schedule leaves all fibers with what they were started for. -/
theorem follows_play {p : Pool} (schedule : List Turn)
    (h : ∃ birth, Follows roots birth p.fibers) :
    ∃ birth, Follows roots birth (p.play schedule).fibers := by
  -- Over the schedule, for every pool; each turn is a move.
  induction schedule generalizing p with
  | nil => exact h
  | cons turn rest ih =>
    obtain ⟨birth, hfollows⟩ := h
    exact ih (hfollows.move (p.move_take turn))

/-- However far the fibers have come, all of them can be brought to their ends. -/
theorem exists_all_over {p : Pool} (h : ∃ birth, Follows roots birth p.fibers) :
    ∃ further, ∀ f ∈ (p.play further).fibers, f.IsOver := by
  -- As long as one has not ended there is a turn that lowers the measure, and it keeps `Follows`.
  generalize hsize : sizeOfFibers p.fibers = size
  induction size using Nat.strongRecOn generalizing p with
  | _ size ih =>
    by_cases hrunning : ∃ f ∈ p.fibers, ¬ f.IsOver
    · obtain ⟨birth, hfollows⟩ := h
      obtain ⟨turn, hlt⟩ := Pool.exists_turn hfollows.orderly
        (fun hf => (hfollows.fiber hf).not_join) hrunning
      obtain ⟨further, hover⟩ := ih _ (hsize ▸ hlt) (hfollows.move (p.move_take turn)) rfl
      exact ⟨turn :: further, hover⟩
    · refine ⟨[], fun f hf => ?_⟩
      exact Decidable.byContradiction fun hnot => hrunning ⟨f, hf, hnot⟩

/-! ## What the fibers do -/

/-- What the fibers of a pool do is what the scripts mean that they were started with. -/
structure Pool.Lexical (roots : List Birth) (birth : Nat → Birth) (p : Pool) : Prop where
  /-- The first fibers run the scripts themselves. -/
  own : ∀ {i : Nat} {b : Birth}, roots[i]? = some b → birth i = b
  /-- Every other fiber was started by one of the fibers. -/
  others : ∀ i < p.fibers.length, roots.length ≤ i →
    ∃ (j : Nat) (f : Fiber), p.fibers[j]? = some f ∧ ∃ deed ∈ f.done, i ∈ deed.tasks
  /-- What a fiber has done is the beginning of what its script means in the context of its
  start, and so is what it has started others with. -/
  begun : ∀ {i : Nat} {f : Fiber}, p.fibers[i]? = some f →
    f.trail birth <+: (birth i).meaning.deeds
  /-- A fiber that has ended has done all of it, has ended as its script does, and has found the
  context of its start again. -/
  finished : ∀ {i : Nat} {f : Fiber} {ending : Ending}, p.fibers[i]? = some f →
    f.control = .ended ending →
      f.trail birth = (birth i).meaning.deeds ∧ (birth i).meaning.ending = ending ∧
        f.ambient.context = (birth i).context

theorem Follows.lexical {p : Pool} (h : Follows roots birth p.fibers) :
    p.Lexical roots birth where
  own := h.own
  others := h.others
  begun hf := (h.fiber hf).trail_begins
  finished hf hended := (h.fiber hf).of_ended hended

/-- What a fiber and those that it has started did, when all have ended, is what the script does
and those that it starts. -/
theorem Follows.trace_eq {p : Pool} (h : Follows roots birth p.fibers)
    (hover : ∀ f ∈ p.fibers, f.IsOver) (depth : Nat) {i : Nat} (hi : i < p.fibers.length) :
    p.trace depth i = (birth i).tree depth := by
  -- Over the depth, for every fiber: what it has started is one level less deep.
  induction depth generalizing i with
  | zero => rfl
  | succ depth ih =>
    have hf := List.getElem?_eq_getElem hi
    obtain ⟨ending, hended⟩ := Fiber.isOver_iff.1 (hover _ (List.getElem_mem hi))
    -- Both sides are read off the same deeds, in which the tasks are fibers or their births.
    have hdeeds := ((h.fiber hf).of_ended hended).1
    rw [Pool.trace, hf, Birth.tree, ← hdeeds, Fiber.trail, List.map_map]
    refine List.map_congr_left fun deed hdeed => ?_
    cases deed with
    | saw => rfl
    | forked awaited children =>
      have hknown := (h.orderly.knows hf).tasks _ (List.mem_reverse.1 hdeed)
      simp only [Function.comp, Deed.map, List.map_map]
      refine congrArg (Entry.forked awaited) (List.map_congr_left fun child hchild => ?_)
      exact ih (hknown child hchild).2

/-- **Scripts that run at once, under any schedule, do what they mean where the context is handed
down as an argument.**  What each task does is settled by its own script and by the context of the
place where it was started, whatever the schedule and the other tasks; however far the tasks have
come, all can be brought to their ends; and a task finds again what surrounded it outside every body
that it leaves.  The scripts wait for their tasks one by one, or at once where it makes no
difference which of them fails first. -/
theorem play_lexical (hroots : ∀ b ∈ roots, isPlainBody b.body = true ∨ b.meaning.settled)
    (schedule : List Turn) {p : Pool} (hp : p = (Pool.ofBirths roots).play schedule) :
    (∃ birth, p.Lexical roots birth) ∧
      ((∀ f ∈ p.fibers, f.IsOver) → ∀ (depth i : Nat) (b : Birth), roots[i]? = some b →
        p.trace depth i = b.tree depth) ∧
      (∃ further, ∀ f ∈ (p.play further).fibers, f.IsOver) ∧ p.Restores := by
  -- Either condition on the scripts leaves nothing to the schedule.
  have hsettled : ∀ b ∈ roots, b.meaning.settled := by
    intro b hb
    rcases hroots b hb with hplain | hsettled
    · exact settled_of_isPlainBody b.body b.context [] hplain
    · exact hsettled
  have hfollows : ∃ birth, Follows roots birth p.fibers :=
    hp ▸ follows_play schedule (follows_ofBirths hsettled)
  refine ⟨?_, ?_, exists_all_over hfollows, p.restores⟩
  · obtain ⟨birth, h⟩ := hfollows
    exact ⟨birth, h.lexical⟩
  · -- A pool in which all have ended is described by the same births.
    intro hover depth i b hb
    obtain ⟨birth, h⟩ := hfollows
    have hi := Nat.lt_of_lt_of_le (List.getElem?_eq_some_iff.1 hb).1 h.present
    rw [h.trace_eq hover depth hi, h.own hb]

/-- A script whose scopes end by a failure and around a task that outlasts them, beside one that
fails. -/
theorem play_lexical_failing :
    let roots : List Birth := [
      ⟨none, [.scope (.int 1) [.fork false [[.yield, .read]],
        .attempt [.within .direct .null [.inside, .raise (.int 7)] .null], .read],
        .readOrNull, .await 0]⟩,
      ⟨some (.int 2), [.yield, .read, .raise (.int 3)]⟩]
    let p := (Pool.ofBirths roots).play
      (List.replicate 20 [Turn.resume 1, .resume 0, .resume 2]).flatten
    (∃ birth, p.Lexical roots birth) ∧
      p.trace 2 0 = [.saw (.entered (.int 1)), .forked false [[.saw (.read (.ok (.int 1)))]],
        .saw (.inside true), .saw (.caught (.raised .runtime [.int 7])),
        .saw (.read (.ok (.int 1))), .saw (.readOrNull .null)] ∧
      p.trace 2 1 = [.saw (.read (.ok (.int 2)))] := by
  intro roots p
  have hplain : ∀ b ∈ roots, isPlainBody b.body = true := by decide
  have hover : ∀ f ∈ p.fibers, f.IsOver := by decide +kernel
  obtain ⟨hlexical, htrace, -, -⟩ := play_lexical (fun b hb => .inl (hplain b hb)) _ (rfl : p = _)
  exact ⟨hlexical, htrace hover 2 0 _ rfl, htrace hover 2 1 _ rfl⟩

end RpcContract.Script
