import Mathlib.Data.List.Basic
import RpcContract.Task.Machine

/-!
# Taking turns

A task that takes turns with others does what it would do alone, only later: what has become of it
depends on the number of its own turns and on nothing else.  And a task that has taken enough turns
has done what its program means, with the surroundings and the scopes that it had before.
-/

namespace RpcContract

variable {ε : Type}

/-! ## Turns of a task -/

namespace Task

theorem advanceBy_add (m n : Nat) (t : Task ε) :
    advanceBy (m + n) t = advanceBy n (advanceBy m t) := by
  induction m generalizing t with
  | zero => rw [Nat.zero_add, advanceBy]
  | succ m ih => rw [Nat.succ_add, advanceBy, ih, advanceBy]

end Task

/-! ## Running a program -/

namespace Program

/-- The number of turns after which a task is about to end a program. -/
def turns : Program ε → Ambient → Nat
  | .finish _, _ => 0
  | .observe next, a => (next a).turns a + 1
  | .emit _ next, a => next.turns a + 1
  | .suspend next, a => next.turns a + 1
  | .scope setting body next, a =>
    -- One turn enters the scope and one leaves it.
    1 + (body.turns (a.enter setting)
      + (1 + (next (body.evaluate (a.enter setting)).outcome).turns a))

/-- The last step of a program is to end. -/
theorem steps_eq (p : Program ε) (a : Ambient) : p.steps a = p.turns a + 1 := by
  induction p generalizing a with
  | finish outcome => rfl
  | observe next ih => rw [steps, turns, ih]
  | emit e next ih => rw [steps, turns, ih]
  | suspend next ih => rw [steps, turns, ih]
  -- The turn that leaves the scope is the step that ends its body.
  | scope setting body next ihbody ihnext =>
    rw [steps, turns, ihbody, ihnext]
    omega

/-- Leaving a scope puts back what entering it changed. -/
theorem advanceBy_leave (a : Ambient) (setting : Option Setting) (next : Outcome → Program ε)
    (outcome : Outcome) (frames : List (Frame ε)) (done : List (Event ε)) :
    Task.advanceBy 1 ⟨a.enter setting, .running (.finish outcome),
        ⟨setting.map a.save, next⟩ :: frames, done⟩ =
      ⟨a, .running (next outcome), frames, done⟩ := by
  -- Without a setting nothing was changed, so there is nothing to put back.
  cases setting with
  | none => rfl
  | some s =>
    simp only [Task.advanceBy, Task.advance, Ambient.enter, Option.map_some, Ambient.restore_set_save]

/-- A task that is about to end a program has done what the program means, and its surroundings and
scopes are those that it had before. -/
theorem advanceBy_turns (p : Program ε) (a : Ambient) (frames : List (Frame ε))
    (done : List (Event ε)) :
    Task.advanceBy (p.turns a) ⟨a, .running p, frames, done⟩ =
      ⟨a, .running (.finish (p.evaluate a).outcome), frames,
        (p.evaluate a).trace.reverse ++ done⟩ := by
  -- On the program, for all frames around it: inside a scope there is one frame more.
  induction p generalizing a frames done with
  | finish outcome => rfl
  | observe next ih => exact ih a a frames done
  | emit e next ih =>
    refine (ih a frames ((a, e) :: done)).trans ?_
    simp [evaluate]
  | suspend next ih => exact ih a frames done
  | scope setting body next ihbody ihnext =>
    -- Three stretches: into the scope, through its body, and out of it to what follows.
    have henter : Task.advanceBy 1 ⟨a, .running (.scope setting body next), frames, done⟩ =
        ⟨a.enter setting, .running body, ⟨setting.map a.save, next⟩ :: frames, done⟩ := rfl
    rw [turns, Task.advanceBy_add, henter, Task.advanceBy_add, ihbody, Task.advanceBy_add,
      advanceBy_leave, ihnext]
    simp [evaluate]

/-- A task that runs a program by itself ends with the outcome and the trace that the program means,
outside every scope. -/
theorem run_eq (a : Ambient) (p : Program ε) :
    Task.run a p = ⟨a, .ended (p.evaluate a).outcome, [], (p.evaluate a).trace.reverse⟩ := by
  -- One more turn than it takes to come to the end of the program.
  rw [Task.run, steps_eq, Task.advanceBy_add, Task.start, advanceBy_turns, List.append_nil]
  rfl

end Program

end RpcContract
