import RpcContract.Script.Pool

/-!
# Runs of scripts

A run takes turns in rounds.  A round is the turns that were called for during the round before, in
the order in which they were called for; a fiber keeps its turn until it gives way, waits or ends.
The round in which the run stops is taken to its end, and nothing happens after it.
-/

namespace RpcContract.Script

/-- A pool and the turns that are called for: the rest of this round and those of the next. -/
structure Run where
  pool : Pool
  round : List Turn
  next : List Turn
  stopping : Bool

namespace Run

/-- The run of a script before its first turn. -/
def start (steps : List Step) : Run := ⟨.start steps, [.resume 0], [], false⟩

/-- Takes the next turn, or begins the next round.  There is nothing to be done once the run has
stopped or no turn is called for. -/
def tick? (r : Run) : Option Run :=
  match r.round with
  | turn :: round =>
    let progress := r.pool.take turn
    some {
      pool := progress.pool
      round := if progress.again then turn :: round else round
      next := r.next ++ progress.due
      stopping := r.stopping || turn == .stop }
  | [] => if r.stopping || r.next.isEmpty then none else some { r with round := r.next, next := [] }

/-- Takes turns until there is nothing to be done, at most a given number. -/
def go : Nat → Run → Run
  | 0, r => r
  | fuel + 1, r =>
    match r.tick? with
    | some r => go fuel r
    | none => r

/-- A number of turns that is enough.  Every step and every body is met once, and takes a few turns
with the round that they begin. -/
def enough (steps : List Step) : Nat := 32 * (sizeOfBody steps + 1)

end Run

/-- What a task did, with what the tasks that it started did. -/
inductive Entry where
  | saw (o : Observation)
  | forked (awaited : Bool) (traces : List (List Entry))
  deriving Repr

/-- What a run comes to: what the script did, how it ended and what surrounds it in the end. -/
structure Result where
  trace : List Entry
  ending : Option Ending
  ambient : Ambient

/-- What a fiber did, up to a depth of fibers that start fibers. -/
def Pool.trace (p : Pool) : Nat → Nat → List Entry
  | 0, _ => []
  | depth + 1, id =>
    match p.fibers[id]? with
    | none => []
    | some f => f.done.reverse.map fun
        | .saw o => .saw o
        | .forked awaited children => .forked awaited (children.map (p.trace depth))

/-- Runs a script. -/
def run (steps : List Step) : Result :=
  let p := (Run.start steps).go (Run.enough steps) |>.pool
  { trace := p.trace p.fibers.length 0
    ending := p.ending? 0
    ambient := (p.fibers[0]?.map Fiber.ambient).getD .outside }

end RpcContract.Script
