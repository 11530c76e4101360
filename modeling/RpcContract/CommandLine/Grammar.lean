import RpcContract.Text.Digit
import RpcContract.Text.Quoted

/-!
# Arguments of a command line

A grammar says which switches and operands a program takes.  Switches may stand anywhere before a
lone `--`, may be shortened as long as they stay unique, and single letters may be clustered.
Operands are filled from left to right, as many at a time as stand together.
-/

namespace RpcContract.CommandLine

/-- An option that takes no value. -/
structure Switch where
  /-- The names of the switch, each with its dashes. -/
  names : List Text
  /-- What the switch does. -/
  help : Text
  deriving Repr, DecidableEq

/-- How many arguments an operand takes. -/
inductive Arity where
  /-- Exactly one. -/
  | one
  /-- One or none.  Only the last operand may be of this kind. -/
  | optional
  /-- One and everything behind it, switches included. -/
  | rest
  deriving Repr, DecidableEq

/-- An argument that is known by its position. -/
structure Operand where
  name : Text
  arity : Arity
  /-- Whether the operand must be given. -/
  required : Bool
  /-- What the operand is. -/
  help : Text
  /-- The values that the operand may have, with what they mean; none if any value will do. -/
  choices : List (Text × Text)
  deriving Repr, DecidableEq

/-- What a program takes. -/
structure Grammar where
  program : Text
  description : Option Text
  switches : List Switch
  operands : List Operand
  deriving Repr

/-- Why reading arguments stops. -/
inductive Stop where
  /-- Help is asked for. -/
  | help (g : Grammar)
  /-- The arguments are not what the program takes. -/
  | misuse (g : Grammar) (message : Text)
  deriving Repr

/-- The switch that asks for help. -/
def Switch.help? : Switch :=
  ⟨["-h".text, "--help".text], "show this help message and exit".text⟩

/-- How a switch is named in messages. -/
def Switch.shown (s : Switch) : Text := Text.join "/".text s.names

/-- What stands behind the name of a switch in one argument. -/
inductive Attached where
  | nothing
  /-- What stands behind an equals sign, or more letters behind the letter of the switch. -/
  | value (t : Text)
  deriving Repr

/-- What an argument is taken for. -/
inductive Token where
  | word
  /-- The lone `--`, behind which everything is a word. -/
  | separator
  /-- A switch, the name that it was recognised by and what is attached to it. -/
  | switch (s : Switch) (name : Text) (attached : Attached)
  /-- An option that the program does not have. -/
  | unknown
  deriving Repr

/-- Whether the token stands for an option. -/
def Token.isOption : Token → Bool
  | .switch _ _ _ | .unknown => true
  | .word | .separator => false

/-! ## Recognising options -/

/-- Splits a text at its first equals sign. -/
def splitEquals : Text → Text × Attached
  | [] => ([], .nothing)
  | .char '=' :: rest => ([], .value rest)
  | c :: rest =>
    let (before, behind) := splitEquals rest
    (c :: before, behind)

/-- Whether the text is a negative number, with the digits of any script. -/
def isNegativeNumber (t : Text) : Bool :=
  let t := if t.getLast? = some '\n' then t.dropLast else t
  match t with
  | .char '-' :: number =>
    let fraction := number.dropWhile Text.isDecimal
    match fraction with
    | [] => !number.isEmpty
    | .char '.' :: digits => !digits.isEmpty && digits.all Text.isDecimal
    | _ => false
  | _ => false

namespace Grammar

/-- Every name of every switch. -/
def names (g : Grammar) : List (Text × Switch) :=
  g.switches.flatMap fun s => s.names.map fun name => (name, s)

/-- The switch with a name. -/
def named? (g : Grammar) (name : Text) : Option Switch :=
  (g.names.find? fun entry => entry.1 == name).map (·.2)

/-- The switches that a text may be meant for: with two dashes those whose names it begins, with
one dash also the one whose letter it begins with. -/
def candidates (g : Grammar) (t : Text) : List Token :=
  if "--".text.isPrefixOf t then
    let (before, attached) := splitEquals t
    (g.names.filter fun entry => before.isPrefixOf entry.1).map fun entry =>
      .switch entry.2 entry.1 attached
  else
    g.names.filterMap fun entry =>
      if entry.1 = t.take 2 then some (.switch entry.2 entry.1 (.value (t.drop 2)))
      else if t.isPrefixOf entry.1 then some (.switch entry.2 entry.1 .nothing)
      else none

/-- The name by which a token was recognised. -/
def recognised : Token → Text
  | .switch _ name _ => name
  | _ => []

/-- What an argument is taken for, as long as no `--` stands before it. -/
def classify (g : Grammar) (t : Text) : Except Stop Token :=
  if t.head? ≠ some '-' then .ok .word
  else
    match g.named? t with
    | some s => .ok (.switch s t .nothing)
    | none =>
      if t.length = 1 then .ok .word
      else
        let (before, attached) := splitEquals t
        match attached, g.named? before with
        | .value v, some s => .ok (.switch s before (.value v))
        | _, _ =>
          match g.candidates t with
          | [token] => .ok token
          | [] => .ok (if isNegativeNumber t || t.contains (.char ' ') then .word else .unknown)
          | tokens =>
            .error (.misuse g ("ambiguous option: ".text ++ t ++ " could match ".text
              ++ Text.join ", ".text (tokens.map recognised)))

/-- What each argument is taken for. -/
def classifyAll (g : Grammar) : List Text → Except Stop (List (Text × Token))
  | [] => .ok []
  | t :: rest =>
    if t = "--".text then .ok ((t, .separator) :: rest.map fun u => (u, .word))
    else do
      let token ← g.classify t
      let tokens ← g.classifyAll rest
      return (t, token) :: tokens

/-- The failure of a switch that has something attached. -/
def ignoredValue (g : Grammar) (s : Switch) (value : Text) : Stop :=
  .misuse g ("argument ".text ++ s.shown ++ ": ignored explicit argument ".text
    ++ Text.quoted value)

/-- The switches of a cluster: one that is recognised already and those of the letters behind it.
From the first letter on that is no switch, the rest counts as a value of the switch before it. -/
def cluster (g : Grammar) (s : Switch) : Text → Except Stop (List Switch)
  | [] => .ok [s]
  | c :: rest =>
    match g.named? [.char '-', c] with
    | some next => (g.cluster next rest).map (s :: ·)
    | none => .error (g.ignoredValue s (c :: rest))

/-- The switches that a recognised option stands for.  Only behind a single dash may something be
attached, and it must not be empty. -/
def expand (g : Grammar) (s : Switch) (name : Text) : Attached → Except Stop (List Switch)
  | .nothing => .ok [s]
  | .value t =>
    if t.isEmpty || "--".text.isPrefixOf name then .error (g.ignoredValue s t) else g.cluster s t

end Grammar

/-! ## Filling operands -/

/-- What was read. -/
structure Parsed where
  switches : List Switch
  /-- The operands that were reached, with their values. -/
  operands : List (Operand × List Text)
  /-- The arguments that the program does not take. -/
  extras : List Text
  deriving Repr

namespace Parsed

/-- Nothing was read. -/
def empty : Parsed := ⟨[], [], []⟩

def addSwitches (p : Parsed) (switches : List Switch) : Parsed :=
  { p with switches := p.switches ++ switches }

def addOperand (p : Parsed) (operand : Operand) (values : List Text) : Parsed :=
  { p with operands := p.operands ++ [(operand, values)] }

def addExtras (p : Parsed) (extras : List Text) : Parsed :=
  { p with extras := p.extras ++ extras }

/-- Whether a switch was given. -/
def has (p : Parsed) (s : Switch) : Bool := s ∈ p.switches

/-- The values of the operand with a name. -/
def values (p : Parsed) (name : Text) : List Text :=
  ((p.operands.find? fun entry => entry.1.name == name).map (·.2)).getD []

end Parsed

/-- The number of separators at the front. -/
def countSeparators : List (Text × Token) → Nat
  | (_, .separator) :: rest => countSeparators rest + 1
  | _ => 0

/-- The number of arguments at the front that an operand takes, separators included. -/
def Arity.take? (arity : Arity) (args : List (Text × Token)) : Option Nat :=
  let before := countSeparators args
  match arity, args.drop before with
  | .rest, (_, .word) :: _ => some args.length
  | .one, (_, .word) :: behind | .optional, (_, .word) :: behind =>
    some (before + 1 + countSeparators behind)
  | .optional, _ => some before
  | _, _ => none

/-- The values among the arguments that an operand takes. -/
def Arity.values (arity : Arity) (args : List Text) : List Text :=
  if arity = .rest then args else args.erase "--".text

/-- Fills as many operands as possible.  Also says which are left and how many arguments were
taken. -/
def fill (args : List (Text × Token)) :
    List Operand → Parsed → Parsed × List Operand × Nat
  | [], p => (p, [], 0)
  | operand :: operands, p =>
    match operand.arity.take? args with
    | none => (p, operand :: operands, 0)
    | some n =>
      let values := operand.arity.values ((args.take n).map (·.1))
      let (p, operands, count) := fill (args.drop n) operands (p.addOperand operand values)
      (p, operands, n + count)

/-! ## Reading -/

namespace Grammar

/-- Reads classified arguments.  Also says which operands were not reached. -/
def readTokens (g : Grammar) (args : List (Text × Token)) (operands : List Operand)
    (p : Parsed) : Except Stop (Parsed × List Operand) :=
  if args.all fun arg => !arg.2.isOption then
    let (p, operands, count) := fill args operands p
    .ok (p.addExtras ((args.drop count).map (·.1)), operands)
  else
    match args with
    | [] => .ok (p, operands)
    | (_, .switch s name attached) :: rest =>
      match g.expand s name attached with
      | .error stop => .error stop
      | .ok switches =>
        if Switch.help? ∈ switches then .error (.help g)
        else g.readTokens rest operands (p.addSwitches switches)
    | (t, .unknown) :: rest => g.readTokens rest operands (p.addExtras [t])
    | arg :: rest =>
      match fill (arg :: rest) operands p with
      | (p, operands, n + 1) => g.readTokens (rest.drop n) operands p
      | (p, operands, 0) =>
        let skipped := rest.takeWhile fun arg => !arg.2.isOption
        g.readTokens (rest.dropWhile fun arg => !arg.2.isOption) operands
          (p.addExtras ((arg :: skipped).map (·.1)))
termination_by args.length
decreasing_by
  all_goals simp only [List.length_cons, List.length_drop]
  · omega
  · omega
  · omega
  · have := (List.dropWhile_suffix (l := rest) fun arg => !arg.2.isOption).length_le
    omega

/-- Reads arguments.  Every operand that must be given has to be there. -/
def read (g : Grammar) (args : List Text) : Except Stop Parsed := do
  let tokens ← g.classifyAll args
  let (p, missing) ← g.readTokens tokens g.operands .empty
  match missing.filter (·.required) with
  | [] => return p
  | operands =>
    throw (.misuse g ("the following arguments are required: ".text
      ++ Text.join ", ".text (operands.map (·.name))))

end Grammar

end RpcContract.CommandLine
