import RpcContract.Task.Ambient

/-!
# Programs

A program is what a task has yet to do.  It looks at its surroundings, emits events, gives way to
other tasks and opens scopes; what it does next may depend on what it saw.  The ambient values
change only inside scopes, and a scope hands the outcome of its body on, so that scopes also serve
to catch failures.

`Program.evaluate` is the meaning of a program: the ambient values are passed down as an argument,
and nothing is ever put back.
-/

namespace RpcContract

inductive Program (ε : Type) where
  | finish (outcome : Outcome)
  | observe (next : Ambient → Program ε)
  | emit (event : ε) (next : Program ε)
  /-- Gives other tasks a turn. -/
  | suspend (next : Program ε)
  /-- Runs a body inside a scope, if there is a setting, and goes on with its outcome. -/
  | scope (setting : Option Setting) (body : Program ε) (next : Outcome → Program ε)

/-- An event and what surrounded it. -/
abbrev Event (ε : Type) := Ambient × ε

/-- The trace of a computation and how it ended. -/
structure Run (ε : Type) where
  trace : List (Event ε)
  outcome : Outcome

/-- The surroundings in which the body of a scope runs. -/
def Ambient.enter (a : Ambient) : Option Setting → Ambient
  | some s => a.set s
  | none => a

namespace Program

variable {ε : Type}

/-- A program that returns a value. -/
def pure (v : Value) : Program ε := .finish (.returned v)

/-- A program that fails. -/
def fail (f : Failure) : Program ε := .finish (.raised f)

/-- A program that ends with a value or fails. -/
def ofExcept (result : Except Failure Value) : Program ε := .finish (.ofExcept result)

/-- Runs a program and goes on with its value; its failure is passed on. -/
def andThen (p : Program ε) (next : Value → Program ε) : Program ε :=
  .scope none p fun
    | .returned v => next v
    | .raised f => fail f

/-- A program that looks at the request context, where there must be one. -/
def readContext (next : Value → Program ε) : Program ε :=
  .observe fun a =>
    match a.requireContext with
    | .ok v => next v
    | .error f => fail f

/-- What a program does in given surroundings. -/
def evaluate : Program ε → Ambient → Run ε
  | .finish outcome, _ => ⟨[], outcome⟩
  | .observe next, a => (next a).evaluate a
  | .emit e next, a =>
    let later := next.evaluate a
    ⟨(a, e) :: later.trace, later.outcome⟩
  | .suspend next, a => next.evaluate a
  | .scope setting body next, a =>
    let inner := body.evaluate (a.enter setting)
    let later := (next inner.outcome).evaluate a
    ⟨inner.trace ++ later.trace, later.outcome⟩

/-- The number of steps that a task takes to run a program. -/
def steps : Program ε → Ambient → Nat
  | .finish _, _ => 1
  | .observe next, a => (next a).steps a + 1
  | .emit _ next, a => next.steps a + 1
  | .suspend next, a => next.steps a + 1
  | .scope setting body next, a =>
    body.steps (a.enter setting)
      + (next (body.evaluate (a.enter setting)).outcome).steps a + 1

end Program

end RpcContract
