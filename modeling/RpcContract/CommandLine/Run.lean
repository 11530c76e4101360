import RpcContract.CommandLine.Command
import RpcContract.CommandLine.Usage
import RpcContract.Dispatch
import RpcContract.Json.Printer
import RpcContract.Log.Trace
import RpcContract.Manifest.Load
import RpcContract.Response
import RpcContract.Value.Writable

/-!
# Runs of the command line

A run reads its arguments, carries the command out and says what is printed, what is logged and how
the program exits.  Files are given, so a run is a function of its arguments and files alone.
-/

namespace RpcContract.CommandLine

/-- The logger that the command line uses. -/
def logger : Text := "telephone.cli".text

/-- What a run does. -/
structure Outcome where
  exit : Nat
  output : Text
  /-- What is written to the error output. -/
  complaint : Text
  logs : List Logged

/-- The schema of a type text as JSON. -/
def printSchema (type : Text) : Text := Json.print .indented (Schema.compile type).toValue

/-- The names of a table: those of the functions of each namespace, sorted. -/
def summary (table : Table) : Assoc (List Text) :=
  table.map fun entry => (entry.1, Text.sort (Assoc.names entry.2))

/-- A summary as a value. -/
def summaryValue (s : Assoc (List Text)) : Value :=
  .record (s.map fun entry => (entry.1, .list (entry.2.map .text)))

/-- The record of a manifest that loads. -/
def valid (s : Assoc (List Text)) : Record :=
  let count := (s.map fun entry => entry.2.length).foldl (· + ·) 0
  ⟨.info, logger,
    "Manifest is valid: ".text ++ Binary64.digitsText count ++ " function(s)".text⟩

/-- The records of a computation and, unless it fails, its value. -/
structure Reported (α : Type) where
  logs : List Logged
  result : Except Failure α

/-- Loads a manifest and summarises what it registers. -/
def validate (sources : List Source) (files : Files) (manifest : Value) :
    Reported (Assoc (List Text)) :=
  let load := Manifest.loadFrom sources files manifest
  let logs := load.records.map .outside
  match load.result with
  | .error failure => ⟨logs, .error failure⟩
  | .ok table => ⟨logs ++ [.outside (valid (summary table))], .ok (summary table)⟩

/-- The response to an outcome; only failures of this layer are responded to. -/
def respond : RpcContract.Outcome → Except Failure Response
  | .returned v => Response.success v
  | .raised failure => if failure.isOwn then .ok (.failure failure) else .error failure

/-- Dispatches one call against a manifest.  Absent arguments are none. -/
def call (sources : List Source) (files : Files) (manifest ns function args : Value)
    (config : Config) : Reported Response :=
  let load := Manifest.loadFrom sources files manifest
  let logs := load.records.map .outside
  match load.result with
  | .error failure => ⟨logs, .error failure⟩
  | .ok table =>
    let body := Request.wireBody ns function (if args.isTrue then args else .list [])
    let run := (Dispatch.handle (.built table) config (.generated 0) .null (.body body)).evaluate
      .outside
    ⟨logs ++ Logged.ofTrace run.trace, respond run.outcome⟩

/-- The arguments of a call, which are written as a JSON list. -/
def readArgs (t : Text) : Except Failure Value := do
  match ← Manifest.readJson t with
  | .list args => return .list args
  | _ => throw (.error .value "args must be a JSON array".text)

/-- The outcome of a command that failed. -/
def failure (logs : List Logged) (what : String) (f : Failure) : Outcome :=
  let record : Record := ⟨.error, logger, what.text ++ " failed: ".text ++ f.message⟩
  ⟨1, [], [], logs ++ [.outside record]⟩

/-- A text on lines of its own. -/
def lines (t : Text) : Text := t ++ "\n".text

/-- The outcome of a call that was responded to.  A result that cannot be written is a failure that
nothing catches. -/
def answer (logs : List Logged) (response : Response) : Except Failure Outcome :=
  response.body.toWrite.map fun body =>
    ⟨if response.status = 200 then 0 else 1, lines (Json.print .indented body), [], logs⟩

/-- Carries a command out. -/
def Command.run (sources : List Source) (files : Files) : Command → Except Failure Outcome
  | .parse type => .ok ⟨0, lines (printSchema type), [], []⟩
  | .validate path =>
    let reported := CommandLine.validate sources files (.text path)
    .ok (match reported.result with
      | .ok s => ⟨0, lines (Json.print .indented (summaryValue s)), [], reported.logs⟩
      | .error f => CommandLine.failure reported.logs "Validation" f)
  | .call path ns function args strict =>
    match readArgs args with
    | .error f => .ok (CommandLine.failure [] "Call" f)
    | .ok args =>
      let config : Config := { Config.default with allowNull := !strict }
      let reported := CommandLine.call sources files (.text path) ns function args config
      match reported.result with
      | .error f => .ok (CommandLine.failure reported.logs "Call" f)
      | .ok response => answer reported.logs response

/-- The level that records need to be written. -/
def Arguments.threshold (args : Arguments) : Level := if args.verbose then .debug else .warning

/-- The outcome with the records that are written. -/
def Outcome.atLeast (outcome : Outcome) (threshold : Level) : Outcome :=
  { outcome with logs := outcome.logs.filter fun logged => logged.record.level.passes threshold }

/-- Runs the program. -/
def run (sources : List Source) (files : Files) (args : List Text) : Except Failure Outcome :=
  match Arguments.read args with
  | .error (.help g) => .ok ⟨0, g.helpText, [], []⟩
  | .error (.misuse g message) => .ok ⟨2, [], g.complaint message, []⟩
  | .ok args =>
    match args.command with
    | none => .ok ⟨0, Command.grammar.helpText, [], []⟩
    | some command => (command.run sources files).map (·.atLeast args.threshold)

end RpcContract.CommandLine
