import RpcContract.CommandLine.Grammar

/-!
# Usage

The help that a grammar yields: a line that shows how the program is used, and columns that explain
its operands and options.  Lines are short enough to be written unbroken.
-/

namespace RpcContract.CommandLine

/-- How an operand is shown. -/
def Operand.shown (o : Operand) : Text :=
  if o.choices.isEmpty then o.name
  else "\x7b".text ++ Text.join ",".text (o.choices.map (·.1)) ++ "\x7d".text

/-- How an operand is shown where the program's use is shown. -/
def Operand.usage (o : Operand) : Text :=
  match o.arity with
  | .one => o.shown
  | .optional => "[".text ++ o.shown ++ "]".text
  | .rest => o.shown ++ " ...".text

/-- The line that shows how the program is used. -/
def Grammar.usage (g : Grammar) : Text :=
  let switches := g.switches.map fun s => "[".text ++ s.names.headD [] ++ "]".text
  "usage: ".text ++ Text.join " ".text (g.program :: switches ++ g.operands.map Operand.usage)
    ++ "\n".text

/-- A row of help: how far it is moved in, what it explains and how. -/
structure HelpRow where
  indent : Nat
  subject : Text
  help : Text

namespace HelpRow

/-- The widest column that subjects get. -/
def widest : Nat := 24

/-- The column in which explanations start. -/
def column (rows : List HelpRow) : Nat :=
  min widest (rows.foldl (fun width row => max width (row.indent + row.subject.length + 2)) 0)

/-- A row with its explanation in a column; below the subject if that is too long. -/
def write (column : Nat) (row : HelpRow) : Text :=
  let front := Text.filled row.indent ' ' ++ row.subject
  if front.length + 2 ≤ column then
    front ++ Text.filled (column - front.length) ' ' ++ row.help ++ "\n".text
  else front ++ "\n".text ++ Text.filled column ' ' ++ row.help ++ "\n".text

end HelpRow

/-- The rows of an operand: its own and those of its choices. -/
def Operand.rows (o : Operand) : List HelpRow :=
  ⟨2, o.shown, o.help⟩ :: o.choices.map fun choice => ⟨4, choice.1, choice.2⟩

/-- The row of a switch. -/
def Switch.row (s : Switch) : HelpRow := ⟨2, Text.join ", ".text s.names, s.help⟩

/-- The help of a program. -/
def Grammar.helpText (g : Grammar) : Text :=
  let operands := g.operands.flatMap Operand.rows
  let switches := g.switches.map Switch.row
  let column := HelpRow.column (operands ++ switches)
  let description := match g.description with
    | some t => "\n".text ++ t ++ "\n".text
    | none => []
  g.usage ++ description ++ "\npositional arguments:\n".text
    ++ operands.flatMap (HelpRow.write column)
    ++ "\noptions:\n".text ++ switches.flatMap (HelpRow.write column)

/-- What a misuse is answered with. -/
def Grammar.complaint (g : Grammar) (message : Text) : Text :=
  g.usage ++ g.program ++ ": error: ".text ++ message ++ "\n".text

end RpcContract.CommandLine
