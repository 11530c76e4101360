import RpcContract.Log.Record
import RpcContract.Task.Ambient
import RpcContract.Text.Capital

/-!
# Log sessions

One handler writes the records of this layer's loggers, each with the id of the call during which
it was logged.  Until it is installed nothing is written; installing it again changes only the
level.
-/

namespace RpcContract

namespace Level

/-- The table of record formats by style, as it is shown. -/
def stylesShown : Text :=
  ("\x7b'%': (<class 'logging.PercentStyle'>, '%(levelname)s:%(name)s:%(message)s'), "
    ++ "'\x7b': (<class 'logging.StrFormatStyle'>, '\x7blevelname\x7d:\x7bname\x7d:\x7bmessage\x7d'), "
    ++ "'$': (<class 'logging.StringTemplateStyle'>, "
    ++ "'$\x7blevelname\x7d:$\x7bname\x7d:$\x7bmessage\x7d')\x7d").text

/-- The level that a text asks for.  Case does not matter, and an unknown name asks for INFO.  Two
names stand beside those of the levels and are refused: that of the record format, which is a text,
and that of the table of formats. -/
def ofText (t : Text) : Except Failure Level :=
  let name := t.capitals
  if name = "BASIC_FORMAT".text then
    .error (.error .value "Unknown level: '%(levelname)s:%(name)s:%(message)s'".text)
  else if name = "_STYLES".text then
    .error (.error .type ("Level not an integer or a valid string: ".text ++ stylesShown))
  else .ok ((ofName? name).getD .info)

/-- The level that a value asks for; only a text can ask for one. -/
def ofValue : Value → Except Failure Level
  | .text t => ofText t
  | v => .error (.noAttribute v.typeName "upper".text)

end Level

/-- The root of this layer's loggers. -/
def rootLogger : Text := "telephone".text

/-- Whether a logger is the root of this layer's loggers or below it. -/
def isOwnLogger (logger : Text) : Bool :=
  logger == rootLogger || (rootLogger ++ ".".text).isPrefixOf logger

/-- A text filled up with blanks to a width. -/
def Text.padRight (width : Nat) (t : Text) : Text := t ++ filled (width - t.length) ' '

/-- A record as it is written: when, how important, by whom, during which call, and what. -/
def Record.line (r : Record) (time call : Text) : Text :=
  Text.join " | ".text
    [time, r.level.name.padRight 8, r.logger, "call=".text ++ call, r.message] ++ "\n".text

/-- The state of logging: the level of the handler, once there is one, and the calls that are being
served, the innermost first. -/
structure Session where
  level : Option Level
  calls : List CallId
  /-- How many ids have been made up. -/
  made : Nat
  deriving Repr

namespace Session

/-- Nothing is set up and no call is served. -/
def start : Session := ⟨none, [], 0⟩

/-- Installs the handler, or changes the level of the one that is there.  Where no level can be
made of the value, everything stays as it is. -/
def configure (s : Session) (level : Value) : Except Failure Session :=
  (Level.ofValue level).map fun level => { s with level := some level }

/-- The id of the call that is being served. -/
def current (s : Session) : CallId := s.calls.headD .outside

/-- Starts to serve a call.  An id that does not count as true asks for a new one. -/
def enter (s : Session) (id : Value) : Session :=
  if id.isTrue then { s with calls := .given id :: s.calls }
  else { s with calls := .generated s.made :: s.calls, made := s.made + 1 }

/-- Ends serving the call that was started last. -/
def exit (s : Session) : Session := { s with calls := s.calls.tail }

/-- The level that records need.  A handler without a level leaves the choice to the outside, where
warnings are the least that is let through. -/
def threshold : Level → Level
  | .notSet => .warning
  | level => level

/-- Whether a record is written. -/
def writes (s : Session) (r : Record) : Bool :=
  match s.level with
  | some level => isOwnLogger r.logger && r.level.passes (threshold level)
  | none => false

/-- The texts of call ids: a dash stands outside every call, made up ids are shown by `made`. -/
def callText (made : Nat → Text) : CallId → Text
  | .outside => "-".text
  | .given id => id.bare
  | .generated n => made n

/-- What the handler writes for a record. -/
def written (s : Session) (r : Record) (time : Text) (made : Nat → Text) : Text :=
  if s.writes r then r.line time (callText made s.current) else []

end Session

end RpcContract
