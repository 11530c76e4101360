import RpcContract.Task.Program

/-!
# Tasks

A machine that runs programs one step at a time.  Every task owns a copy of the ambient values,
taken when the task was started, and changes it in place: entering a scope overwrites a value and
remembers the old one, leaving the scope puts it back.  Several tasks take turns in any order.
-/

namespace RpcContract

/-- A scope that a task has entered: what to put back and how to go on with the body's outcome. -/
structure Frame (ε : Type) where
  saved : Option Saved
  next : Outcome → Program ε

/-- What a task is about to do. -/
inductive Control (ε : Type) where
  | running (program : Program ε)
  | ended (outcome : Outcome)

/-- A task with its ambient values, its open scopes, the innermost first, and what it has done so
far, the latest first. -/
structure Task (ε : Type) where
  ambient : Ambient
  control : Control ε
  frames : List (Frame ε)
  done : List (Event ε)

namespace Task

variable {ε : Type}

/-- A task that is about to run a program in given surroundings. -/
def start (a : Ambient) (program : Program ε) : Task ε := ⟨a, .running program, [], []⟩

/-- How the task ended, if it has. -/
def outcome? (t : Task ε) : Option Outcome :=
  match t.control with
  | .ended outcome => some outcome
  | .running _ => none

/-- The trace of the task so far, in the order in which things were done. -/
def trace (t : Task ε) : List (Event ε) := t.done.reverse

/-- One step of the task; one that has ended stays as it is. -/
def advance (t : Task ε) : Task ε :=
  match t.control with
  | .ended _ => t
  | .running (.finish outcome) =>
    match t.frames with
    | [] => { t with control := .ended outcome }
    | frame :: outer =>
      let ambient := match frame.saved with
        | some saved => t.ambient.restore saved
        | none => t.ambient
      { t with ambient := ambient, control := .running (frame.next outcome), frames := outer }
  | .running (.observe next) => { t with control := .running (next t.ambient) }
  | .running (.emit e next) => { t with control := .running next, done := (t.ambient, e) :: t.done }
  | .running (.suspend next) => { t with control := .running next }
  | .running (.scope setting body next) =>
    { t with
      ambient := t.ambient.enter setting
      control := .running body
      frames := ⟨setting.map t.ambient.save, next⟩ :: t.frames }

/-- The task after a number of steps. -/
def advanceBy : Nat → Task ε → Task ε
  | 0, t => t
  | n + 1, t => advanceBy n t.advance

/-- Runs a program to its end. -/
def run (a : Ambient) (program : Program ε) : Task ε :=
  advanceBy (program.steps a) (start a program)

/-- The task with a number makes a step, the others stay as they are. -/
def turn (tasks : List (Task ε)) (i : Nat) : List (Task ε) := tasks.modify i advance

end Task

end RpcContract
