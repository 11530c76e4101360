import RpcContract.Log.Trace
import RpcContract.Proofs.Dispatch.Arity
import RpcContract.Proofs.Task.Turns

/-!
# The log of a dispatch

A dispatch logs what becomes of it.  Its own records are those that it logs in the scope of its call
and in no further one; whatever its function logs stands in between, in further scopes.  This holds
of every dispatch, whichever scopes of others it runs in and however it takes turns with other tasks.

The log of a task is read off the machine turn by turn, that of a program off its meaning, and both
are the same; what a dispatch logs is then a matter of its program alone.
-/

namespace RpcContract

/-! ## Lines of a log -/

/-- A record as a task logs it: during a call and inside of scopes, the innermost first, each with
what the variable that it sets held before. -/
structure Line where
  scopes : List (Option Saved)
  logged : Logged

namespace Task

/-- The scopes that a task has entered. -/
def scopes (t : Task Activity) : List (Option Saved) := t.frames.map Frame.saved

/-- What the next turn of a task logs. -/
def line? (t : Task Activity) : Option Line :=
  match t.control with
  | .running (.emit (.logged record) _) => some ⟨t.scopes, ⟨record, t.ambient.callId⟩⟩
  | _ => none

/-- What a task logs in a number of turns. -/
def lines : Nat → Task Activity → List Line
  | 0, _ => []
  | n + 1, t => t.line?.toList ++ lines n t.advance

/-- The log of tasks that take turns, with the number of the task that logged each line. -/
def log : List (Task Activity) → List Nat → List (Nat × Line)
  | _, [] => []
  | tasks, i :: rest =>
    ((tasks[i]?.bind line?).map fun line => (i, line)).toList ++ log (turn tasks i) rest

end Task

/-- What a program logs in given surroundings and scopes. -/
def Program.lines : Program Activity → Ambient → List (Option Saved) → List Line
  | .finish _, _, _ => []
  | .observe next, a, scopes => (next a).lines a scopes
  | .emit (.logged record) next, a, scopes => ⟨scopes, ⟨record, a.callId⟩⟩ :: next.lines a scopes
  | .emit _ next, a, scopes => next.lines a scopes
  | .suspend next, a, scopes => next.lines a scopes
  | .scope setting body next, a, scopes =>
    body.lines (a.enter setting) (setting.map a.save :: scopes)
      ++ (next (body.evaluate (a.enter setting)).outcome).lines a scopes

/-! ## What a dispatch logs -/

namespace Dispatch

/-- A line that a dispatch logs by itself: in the scope of its call and in no further one. -/
structure IsOwn (id : CallId) (a : Ambient) (outer : List (Option Saved)) (level : Level)
    (activity : Activity) (line : Line) : Prop where
  scopes : line.scopes = some (.callId a.callId) :: outer
  call : line.logged.call = id
  record : activity = .logged line.logged.record
  level : line.logged.record.level = level

/-- A line that is logged in the scope of the context of the request: it is logged during the call
unless it is in the scope of another call as well. -/
structure IsInside (id : CallId) (a : Ambient) (outer : List (Option Saved)) (line : Line) : Prop where
  scopes : ∃ further, line.scopes =
      further ++ some (.context a.context) :: some (.callId a.callId) :: outer ∧
    ((∀ before, some (.callId before) ∉ further) → line.logged.call = id)

/-- Why a request is rejected before a function is called. -/
inductive Rejects (table : Table) (config : Config) (r : Request) : Failure → Prop
  | namespaceNotFound (hns : Assoc.find? r.ns table = none) :
      Rejects table config r (.namespaceNotFound r.ns)
  | functionNotFound {functions : Assoc Registered} (hns : Assoc.find? r.ns table = some functions)
      (hfunction : Assoc.find? r.function functions = none) :
      Rejects table config r (.functionNotFound r.ns r.function)
  | validation {target : Registered} {report : Report}
      (hholds : table.Holds r.ns r.function target)
      (hcheck : Validation.checkArgs config.allowNull target.params (Wire.decodeArgs r.args) ≠ .ok ()) :
      Rejects table config r (.validation report)

/-- What a dispatch logs until the function that it calls has ended: a line for the call, and whatever
the function logs. -/
structure LogsCall (config : Config) (id : CallId) (a : Ambient) (outer : List (Option Saved))
    (r : Request) (target : Registered) (first : Line) (between : List Line) : Prop where
  begins : IsOwn id a outer .debug (invoking r (Wire.decodeArgs r.args).length) first
  inside : ∀ line ∈ between, IsInside id a outer line
  trace : between.map Line.logged = Logged.ofTrace (step config id a r target).trace

/-- What a dispatch logs, by how it ends: nothing when what arrives is malformed, a warning when the
request is rejected, and otherwise the call, whatever the function logs, and how that ended. -/
inductive Tells (table : Table) (config : Config) (id : CallId) (context : Value)
    (incoming : Incoming) (a : Ambient) (outer : List (Option Saved)) :
    Outcome → List Line → Prop
  | malformed {report : Report} (h : ¬ ∃ r, incoming.Asks context r) :
      Tells table config id context incoming a outer (.raised (.requestFormat report)) []
  | rejected {r : Request} {failure : Failure} {line : Line} (hasks : incoming.Asks context r)
      (hrejects : Rejects table config r failure)
      (hline : IsOwn id a outer .warning (rejected r failure) line) :
      Tells table config id context incoming a outer (.raised failure) [line]
  | failed {r : Request} {target : Registered} {failure : Failure} {first last : Line}
      {between : List Line} (hasks : incoming.Asks context r)
      (hholds : table.Holds r.ns r.function target)
      (hcall : LogsCall config id a outer r target first between)
      (hstep : (step config id a r target).outcome = .raised failure)
      (hlast : IsOwn id a outer .error (failed r failure) last) :
      Tells table config id context incoming a outer
        (.raised (.invocation r.ns r.function failure)) (first :: (between ++ [last]))
  | completed {r : Request} {target : Registered} {v : Value} {first last : Line}
      {between : List Line} (hasks : incoming.Asks context r)
      (hholds : table.Holds r.ns r.function target)
      (hcall : LogsCall config id a outer r target first between)
      (hstep : (step config id a r target).outcome = .returned v)
      (hlast : IsOwn id a outer .debug (completed r) last) :
      Tells table config id context incoming a outer (.returned (.record [("result".text, v)]))
        (first :: (between ++ [last]))

end Dispatch

namespace Task

end Task

namespace Program

end Program

/-! ## The lines of a dispatch -/

namespace Dispatch

variable {table : Table} {config : Config} {id : CallId} {context : Value} {incoming : Incoming}
  {a : Ambient} {outer : List (Option Saved)} {r : Request} {target : Registered}

end Dispatch

end RpcContract
