import RpcContract.Assoc

/-!
# Log records

A record has a level, the logger that it was given to and a message.  Levels are ordered by weight,
and a logger lets a record through when the record weighs at least as much as the logger's level.
-/

namespace RpcContract

/-- The levels of log records. -/
inductive Level where
  /-- No level of its own. -/
  | notSet
  | debug
  | info
  | warning
  | error
  | critical
  deriving Repr, DecidableEq

namespace Level

/-- The name of a level. -/
def name : Level → Text
  | .notSet => "NOTSET".text
  | .debug => "DEBUG".text
  | .info => "INFO".text
  | .warning => "WARNING".text
  | .error => "ERROR".text
  | .critical => "CRITICAL".text

/-- The weight of a level. -/
def weight : Level → Nat
  | .notSet => 0
  | .debug => 10
  | .info => 20
  | .warning => 30
  | .error => 40
  | .critical => 50

/-- The names of levels; two levels have a second name. -/
def named : Assoc Level :=
  [("NOTSET".text, .notSet), ("DEBUG".text, .debug), ("INFO".text, .info),
   ("WARNING".text, .warning), ("WARN".text, .warning), ("ERROR".text, .error),
   ("CRITICAL".text, .critical), ("FATAL".text, .critical)]

/-- The level with a name. -/
def ofName? (name : Text) : Option Level := Assoc.find? name named

/-- Whether a logger with the given level lets this level through. -/
def passes (level threshold : Level) : Bool := threshold.weight ≤ level.weight

end Level

/-- A message that a logger was given. -/
structure Record where
  level : Level
  logger : Text
  message : Text
  deriving Repr, DecidableEq

end RpcContract
