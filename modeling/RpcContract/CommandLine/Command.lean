import RpcContract.CommandLine.Grammar
import RpcContract.Value.Basic

/-!
# Commands

What the command line can be asked to do, and the grammars of its arguments.
-/

namespace RpcContract.CommandLine

/-- What the command line is asked to do. -/
inductive Command where
  /-- Shows the schema of a type text. -/
  | parse (type : Text)
  /-- Loads a manifest. -/
  | validate (manifest : Text)
  /-- Dispatches one call; `args` is a JSON text.  Each of the two names is a text or, where nothing
  but a separator was given for it, an empty list. -/
  | call (manifest : Text) (ns function : Value) (args : Text) (strict : Bool)
  deriving Repr

/-- The arguments of a run: no command asks for help. -/
structure Arguments where
  verbose : Bool
  command : Option Command
  deriving Repr

namespace Command

def verboseSwitch : Switch :=
  ⟨["--verbose".text, "-v".text], "Enable verbose logging".text⟩

def strictSwitch : Switch :=
  ⟨["--strict-null".text], "Reject null/undefined for declared types".text⟩

/-- An operand that must be given. -/
def needed (name help : String) : Operand := ⟨name.text, .one, true, help.text, []⟩

def manifestOperand : Operand := needed "manifest" "Path to manifest file (JSON or YAML)"

/-- The name of the program. -/
def programName : Text := "telephone".text

/-- The grammar of a command. -/
def grammarOf (name : String) (switches : List Switch) (operands : List Operand) : Grammar :=
  ⟨programName ++ " ".text ++ name.text, none, Switch.help? :: switches, operands⟩

def parseGrammar : Grammar :=
  grammarOf "parse" []
    [needed "type_text" "Declared type text, e.g. '\x7b name: string \x7d'"]

def validateGrammar : Grammar := grammarOf "validate" [] [manifestOperand]

def callGrammar : Grammar :=
  grammarOf "call" [strictSwitch]
    [manifestOperand, needed "namespace" "Namespace of the function",
      needed "function" "Function name",
      ⟨"args".text, .optional, false, "JSON array of arguments".text, []⟩]

/-- The commands with their summaries. -/
def summaries : List (Text × Text) :=
  [("parse", "Print the schema of a type annotation"), ("validate", "Load a registry manifest"),
    ("call", "Dispatch one RPC call")].map fun entry => (entry.1.text, entry.2.text)

/-- The operand that names a command. -/
def commandOperand : Operand :=
  ⟨"command".text, .rest, false, "Command to execute".text, summaries⟩

/-- The grammar of the whole command line. -/
def grammar : Grammar :=
  ⟨programName, some "Typed RPC contract layer: type compiler and dispatcher".text,
    [Switch.help?, verboseSwitch], [commandOperand]⟩

/-- The text of an operand. -/
def text (p : Parsed) (name : String) (otherwise : Text) : Text :=
  (p.values name.text).headD otherwise

/-- The text of an operand, or the empty list where it has none. -/
def value (p : Parsed) (name : String) : Value :=
  match p.values name.text with
  | [] => .list []
  | t :: _ => .text t

/-- Reads the arguments of a command.  Also says which of them the command does not take. -/
def read (name : Text) (args : List Text) : Except Stop (Command × List Text) :=
  if name = "parse".text then do
    let p ← parseGrammar.read args
    return (.parse (text p "type_text" []), p.extras)
  else if name = "validate".text then do
    let p ← validateGrammar.read args
    return (.validate (text p "manifest" []), p.extras)
  else if name = "call".text then do
    let p ← callGrammar.read args
    return (.call (text p "manifest" []) (value p "namespace") (value p "function")
      (text p "args" "[]".text) (p.has strictSwitch), p.extras)
  else
    throw (.misuse grammar ("argument command: invalid choice: ".text ++ Text.quoted name
      ++ " (choose from ".text
      ++ Text.join ", ".text (summaries.map fun entry => Text.quoted entry.1) ++ ")".text))

end Command

/-- Reads the arguments of a run.  What neither the program nor its command takes is refused in the
end. -/
def Arguments.read (args : List Text) : Except Stop Arguments := do
  let p ← Command.grammar.read args
  let (command, extras) ← match p.values "command".text with
    | [] => pure (none, p.extras)
    | name :: rest => do
      let (command, extras) ← Command.read name rest
      pure (some command, p.extras ++ extras)
  if extras.isEmpty then return ⟨p.has Command.verboseSwitch, command⟩
  else
    throw (.misuse Command.grammar
      ("unrecognized arguments: ".text ++ Text.join " ".text extras))

/-- The file that a run reads. -/
def Arguments.manifest? (args : Arguments) : Option Text :=
  match args.command with
  | some (.validate path) | some (.call path _ _ _ _) => some path
  | _ => none

end RpcContract.CommandLine
