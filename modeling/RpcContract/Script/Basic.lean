import RpcContract.Task.Ambient

/-!
# Scripts

A script reads the request context, opens scopes, fails, catches failures, gives way, and starts
further tasks and waits for them.
-/

namespace RpcContract.Script

/-- The ways in which a body can be run with a context. -/
inductive Manner where
  /-- A body that runs at once. -/
  | direct
  /-- A body that is waited for. -/
  | awaited
  /-- A body that runs at once where one could be waited for. -/
  | awaitedDirect
  deriving Repr, DecidableEq

/-- One step of a script. -/
inductive Step where
  /-- Asks for the context. -/
  | read
  /-- Asks for the context where there need not be one. -/
  | readOrNull
  /-- Asks whether there is a context. -/
  | inside
  /-- Asks for the context and fails without one. -/
  | readRaw
  | raise (message : Value)
  /-- Runs a body and catches its failure. -/
  | attempt (body : List Step)
  /-- Runs a body with a context; the body returns a value. -/
  | within (manner : Manner) (context : Value) (body : List Step) (result : Value)
  /-- Runs a body in the scope of a context. -/
  | scope (context : Value) (body : List Step)
  | yield
  /-- Runs a body in a thread that has a copy of what surrounds it. -/
  | thread (body : List Step)
  /-- Starts a task for each body, to be waited for or not.  Waiting ends when all have ended or one
  has failed. -/
  | fork (awaited : Bool) (bodies : List (List Step))
  /-- Waits for one of the tasks that this one started without waiting for them, which are numbered
  in the order of their starts; there may be none with that number. -/
  | await (task : Nat)
  /-- Waits, one after the other, for the tasks that nobody waits for, up to the first that fails. -/
  | join
  deriving Repr

/-- What a script saw. -/
inductive Observation where
  | read (result : Except Failure Value)
  | readOrNull (v : Value)
  | inside (b : Bool)
  | readRaw (v : Value)
  | caught (f : Failure)
  | returned (manner : Manner) (result : Value)
  | entered (context : Value)
  deriving Repr

/-- One entry of what a task did: it saw something, or it started tasks, to be waited for or not,
which are known in a way of one's choice. -/
inductive Deed (τ : Type) where
  | saw (o : Observation)
  | forked (awaited : Bool) (tasks : List τ)
  deriving Repr

/-- How a body ends: by itself or with a failure. -/
abbrev Ending := Except Failure Unit

mutual

/-- A measure of the turns that a step takes, in which every turn counts. -/
def Step.size : Step → Nat
  | .attempt body | .within _ _ body _ | .scope _ body => sizeOfBody body + 2
  | .thread body => sizeOfBody body + 5
  | .fork _ bodies => sizeOfBodies bodies + 1
  | .await _ => 2
  | _ => 1

/-- A measure of the turns that a body takes. -/
def sizeOfBody : List Step → Nat
  | [] => 1
  | step :: rest => step.size + sizeOfBody rest

/-- A measure of the turns that the tasks of several bodies take, and of the waits for them. -/
def sizeOfBodies : List (List Step) → Nat
  | [] => 0
  | body :: rest => sizeOfBody body + 2 + sizeOfBodies rest

end

end RpcContract.Script
