import RpcContract.Script.Basic

/-!
# Fibers

A fiber runs one body of a script.  It owns a copy of the surroundings, taken when it was started,
and changes it in place: entering a scope overwrites the context and remembers the old one, leaving
the scope puts it back, however the body ended.
-/

namespace RpcContract.Script

/-- What is done when an open body ends.  A body that runs in a scope knows what to put back. -/
inductive Exit where
  /-- A failure is caught. -/
  | attempt
  /-- The body returns a value. -/
  | within (manner : Manner) (result : Value) (saved : Saved)
  | scope (saved : Saved)
  /-- The thread that ran the body reports back. -/
  | thread
  /-- The whole script ends, which waits for the tasks that nobody waits for. -/
  | whole
  /-- A wait is over behind which the body around it ends in a given way; a failure of the wait takes
  the place of that ending. -/
  | postponed (ending : Ending)
  deriving Repr

/-- The surroundings that are found again when an open body has ended. -/
def Exit.undo (exit : Exit) (a : Ambient) : Ambient :=
  match exit with
  | .within _ _ saved | .scope saved => a.restore saved
  | .attempt | .thread | .whole | .postponed _ => a

/-- A body that is open: what is done when it ends, and what follows in the body around it. -/
structure Frame where
  exit : Exit
  rest : List Step
  deriving Repr

/-- What a fiber is about to do. -/
inductive Control where
  | running (steps : List Step)
  /-- The innermost open body has ended. -/
  | leaving (ending : Ending)
  /-- Waiting for the fibers that were started last. -/
  | gathering (children : List Nat) (rest : List Step)
  /-- Waiting for one fiber, behind which the steps follow. -/
  | joining (child : Nat) (rest : List Step)
  | ended (ending : Ending)
  deriving Repr

/-- Who learns of the end of a fiber. -/
inductive Listener where
  /-- The end of the script's own fiber ends everything. -/
  | everyone
  /-- The fiber that started this one and waits for it. -/
  | starter (fiber : Nat)
  /-- Whoever comes to wait for it. -/
  | anyone
  deriving Repr

structure Fiber where
  ambient : Ambient
  control : Control
  /-- The open bodies, the innermost first. -/
  frames : List Frame
  /-- What the fiber has done so far, the latest first; fibers are known by their numbers. -/
  done : List (Deed Nat)
  listener : Listener
  deriving Repr

/-- What a step of a fiber asks of the fibers around it. -/
inductive Request where
  /-- The fiber goes on. -/
  | none
  /-- Others have their turns before the fiber goes on. -/
  | pause
  | fork (awaited : Bool) (bodies : List (List Step))
  | join
  /-- The fiber has ended. -/
  | announce
  deriving Repr

namespace Fiber

/-- A fiber that is about to run a body in given surroundings. -/
def start (a : Ambient) (listener : Listener) (body : List Step) : Fiber :=
  ⟨a, .running body, [], [], listener⟩

/-- The fiber of a whole script, outside every scope. -/
def main (steps : List Step) : Fiber :=
  ⟨.outside, .running steps, [⟨.whole, []⟩], [], .everyone⟩

/-- How the fiber ended, if it has. -/
def ending? (f : Fiber) : Option Ending :=
  match f.control with
  | .ended ending => some ending
  | _ => none

/-- Whether the fiber waits for another one by itself. -/
def joins (f : Fiber) (child : Nat) : Bool :=
  match f.control with
  | .joining other _ => other == child
  | _ => false

/-- The fibers that the fiber started without waiting for them, in the order of their starts. -/
def started (f : Fiber) : List Nat :=
  f.done.reverse.flatMap fun
    | .forked false children => children
    | _ => []

/-- The fiber with another deed and other things to do. -/
def see (f : Fiber) (o : Observation) (control : Control) : Fiber :=
  { f with done := .saw o :: f.done, control := control }

/-- The fiber with a body open. -/
def enter (f : Fiber) (exit : Exit) (body rest : List Step) : Fiber :=
  { f with control := .running body, frames := ⟨exit, rest⟩ :: f.frames }

/-- The fiber with a body open in the scope of a context. -/
def enterScope (f : Fiber) (context : Value) (exit : Saved → Exit) (body rest : List Step) :
    Fiber :=
  let setting := Setting.context context
  { f with
    ambient := f.ambient.set setting
    control := .running body
    frames := ⟨exit (f.ambient.save setting), rest⟩ :: f.frames }

/-- Carries out the first of some steps. -/
def perform (f : Fiber) (step : Step) (rest : List Step) : Fiber × Request :=
  let next := Control.running rest
  match step with
  | .read => (f.see (.read f.ambient.requireContext) next, .none)
  | .readOrNull => (f.see (.readOrNull f.ambient.contextOrNull) next, .none)
  | .inside => (f.see (.inside f.ambient.inContext) next, .none)
  | .readRaw =>
    match f.ambient.requireContext with
    | .ok v => (f.see (.readRaw v) next, .none)
    | .error failure => ({ f with control := .leaving (.error failure) }, .none)
  | .raise message =>
    ({ f with control := .leaving (.error (.raised .runtime [message])) }, .none)
  | .attempt body => (f.enter .attempt body rest, .none)
  | .within manner context body result =>
    (f.enterScope context (.within manner result) body rest, .none)
  | .scope context body =>
    ((f.enterScope context .scope body rest).see (.entered context) (.running body), .none)
  | .yield => ({ f with control := next }, .pause)
  | .thread body => (f.enter .thread body rest, .none)
  | .fork awaited bodies => ({ f with control := next }, .fork awaited bodies)
  | .await task =>
    match f.started[task]? with
    | some child => ({ f with control := .joining child rest }, .none)
    | none => ({ f with control := next }, .none)
  | .join => ({ f with control := next }, .join)

/-- Goes on behind an open body that ended. -/
def leave (f : Fiber) (frame : Frame) (ending : Ending) : Fiber × Request :=
  let next := Control.running frame.rest
  match frame.exit, ending with
  | .attempt, .error failure => (f.see (.caught failure) next, .none)
  | .within manner result _, .ok () => (f.see (.returned manner result) next, .none)
  | .attempt, .ok () | .scope _, .ok () => ({ f with control := next }, .none)
  | .within _ _ _, .error failure | .scope _, .error failure =>
    ({ f with control := .leaving (.error failure) }, .none)
  -- the report of a thread takes two turns to arrive
  | .thread, .ok () => ({ f with control := .running (.yield :: frame.rest) }, .pause)
  | .thread, .error failure =>
    -- the failure is raised where the thread was waited for, after as many turns
    ({ f with
        control := .running [.yield]
        frames := ⟨.postponed (.error failure), []⟩ :: f.frames }, .pause)
  | .whole, ending =>
    ({ f with
        control := .running [.join]
        frames := ⟨.postponed ending, []⟩ :: f.frames }, .none)
  | .postponed later, .ok () => ({ f with control := .leaving later }, .none)
  | .postponed _, .error failure => ({ f with control := .leaving (.error failure) }, .none)

/-- One step of the fiber by itself; there is none while it waits and after it has ended. -/
def advance? (f : Fiber) : Option (Fiber × Request) :=
  match f.control with
  | .running [] => some ({ f with control := .leaving (.ok ()) }, .none)
  | .running (step :: rest) => some (f.perform step rest)
  | .leaving ending =>
    match f.frames with
    | [] => some ({ f with control := .ended ending }, .announce)
    | frame :: outer =>
      some ({ f with ambient := frame.exit.undo f.ambient, frames := outer }.leave frame ending)
  | .gathering _ _ | .joining _ _ | .ended _ => none

end Fiber

end RpcContract.Script
