import RpcContract.Script.Fiber

/-!
# Pools of fibers

The fibers of a script, and what happens between them: one starts others, waits for them and learns
how they ended.  A pool moves in turns.  Which turn is taken when is not settled here: every turn is
a function on pools that does nothing where it is not called for, so that a schedule may be any list
of turns.
-/

namespace RpcContract.Script

/-- What can be done next. -/
inductive Turn where
  /-- A fiber makes a step. -/
  | resume (fiber : Nat)
  /-- The starter of a fiber learns of its end. -/
  | report (fiber : Nat)
  /-- The run stops. -/
  | stop
  deriving Repr, DecidableEq

/-- The fibers of a script, each known by its place, and those that nobody waits for yet. -/
structure Pool where
  fibers : List Fiber
  unclaimed : List Nat

/-- A pool after a turn, the turns that are called for from then on, and whether the turn is to be
taken again before any other. -/
structure Progress where
  pool : Pool
  due : List Turn
  again : Bool

namespace Pool

/-- The pool of a script that is about to run. -/
def start (steps : List Step) : Pool := ⟨[.main steps], []⟩

/-- Puts a fiber in the place of the one that was there. -/
def put (p : Pool) (id : Nat) (f : Fiber) : Pool := { p with fibers := p.fibers.set id f }

/-- How a fiber ended, if it has. -/
def ending? (p : Pool) (id : Nat) : Option Ending := p.fibers[id]?.bind Fiber.ending?

/-- Nothing is done. -/
def idle (p : Pool) : Progress := ⟨p, [], false⟩

/-- The fibers that wait for another one by itself. -/
def waiters (p : Pool) (child : Nat) : List Nat :=
  (List.range p.fibers.length).filter fun id => (p.fibers[id]?.any fun f => f.joins child)

/-- The turns that the end of a fiber calls for. -/
def announce (p : Pool) (id : Nat) : Listener → List Turn
  | .everyone => [.stop]
  | .starter _ => [.report id]
  | .anyone => (p.waiters id).map Turn.resume

/-- Starts a fiber for each body in the surroundings of the fiber that asks for it.  That one goes on
at once, unless it waits for them. -/
def fork (p : Pool) (id : Nat) (f : Fiber) (awaited : Bool) (bodies : List (List Step)) :
    Progress :=
  let first := p.fibers.length
  let children := (List.range bodies.length).map (first + ·)
  let listener := if awaited then Listener.starter id else .anyone
  let started := bodies.map (Fiber.start f.ambient listener)
  let waits := awaited && !bodies.isEmpty
  let control := match f.control with
    | .running rest => if waits then .gathering children rest else .running rest
    | other => other
  let f := { f with control := control, done := .forked awaited children :: f.done }
  let p := p.put id f
  { pool := {
      fibers := p.fibers ++ started
      unclaimed := if awaited then p.unclaimed else p.unclaimed ++ children }
    due := children.map Turn.resume
    again := !waits }

/-- Waits for the first fiber that nobody waits for, if there is one. -/
def join (p : Pool) (id : Nat) (f : Fiber) : Progress :=
  match p.unclaimed, f.control with
  | child :: others, .running rest =>
    let control := Control.joining child (.join :: rest)
    ⟨{ p with unclaimed := others }.put id { f with control := control }, [], true⟩
  | _, _ => ⟨p.put id f, [], true⟩

/-- What follows a step of a fiber that asks something of the others. -/
def answer (p : Pool) (id : Nat) (f : Fiber) : Request → Progress
  | .none => ⟨p.put id f, [], true⟩
  | .pause => ⟨p.put id f, [.resume id], false⟩
  | .fork awaited bodies => p.fork id f awaited bodies
  | .join => p.join id f
  | .announce => ⟨p.put id f, p.announce id f.listener, false⟩

/-- A fiber makes a step.  One that waits for another goes on when that has ended, if it failed with
its failure. -/
def resume (p : Pool) (id : Nat) : Progress :=
  match p.fibers[id]? with
  | none => p.idle
  | some f =>
    match f.control, f.advance? with
    | _, some (f, request) => p.answer id f request
    | .joining child rest, none =>
      match p.ending? child with
      | none => p.idle
      | some (.ok ()) => ⟨p.put id { f with control := .running rest }, [], true⟩
      | some (.error failure) =>
        ⟨p.put id { f with control := .leaving (.error failure) }, [], true⟩
    | _, none => p.idle

/-- The starter of a fiber that has ended learns of it, as long as it waits for it: it goes on with
the first failure that it learns of, or when it has learnt of the end of all. -/
def report (p : Pool) (child : Nat) : Progress :=
  match p.fibers[child]? with
  | some ⟨_, .ended ending, _, _, .starter id⟩ =>
    match p.fibers[id]? with
    | some f =>
      match f.control with
      | .gathering children rest =>
        if child ∈ children then
          let left := children.erase child
          match ending with
          | .error failure =>
            ⟨p.put id { f with control := .leaving (.error failure) }, [.resume id], false⟩
          | .ok () =>
            if left.isEmpty then
              ⟨p.put id { f with control := .running rest }, [.resume id], false⟩
            else ⟨p.put id { f with control := .gathering left rest }, [], false⟩
        else p.idle
      | _ => p.idle
    | none => p.idle
  | _ => p.idle

/-- Takes a turn. -/
def take (p : Pool) : Turn → Progress
  | .resume id => p.resume id
  | .report id => p.report id
  | .stop => p.idle

/-- The pool after a schedule. -/
def play (p : Pool) (schedule : List Turn) : Pool :=
  schedule.foldl (fun p turn => (p.take turn).pool) p

end Pool

end RpcContract.Script
