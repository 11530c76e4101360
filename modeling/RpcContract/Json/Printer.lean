import RpcContract.Text.Quoted
import RpcContract.Value.Display

/-!
# Writing JSON

A printer that writes ASCII only, on one line or with one item a line.  Code points beyond ASCII are
written as escapes of their 16-bit units, a surrogate as the one unit that it is.  Tuples are written
as lists, and what JSON has no word for is written as the text that shows it.
-/

namespace RpcContract.Json

/-- The escape of one 16-bit unit. -/
def unitEscape (n : Nat) : Text := "\\u".text ++ Text.hexDigits 4 n

/-- One code point inside a JSON text. -/
def printChar (c : CodePoint) : Text :=
  if c == '"' then "\\\"".text
  else if c == '\\' then "\\\\".text
  else if c == '\n' then "\\n".text
  else if c == '\r' then "\\r".text
  else if c == '\t' then "\\t".text
  else if c == '\x0c' then "\\f".text
  else if c == '\x08' then "\\b".text
  else if 0x20 ≤ c.toNat && c.toNat ≤ 0x7E then [c]
  else if c.toNat < 0x10000 then unitEscape c.toNat
  else
    unitEscape (0xD800 + (c.toNat - 0x10000) / 0x400)
      ++ unitEscape (0xDC00 + (c.toNat - 0x10000) % 0x400)

/-- A text as a JSON text. -/
def printText (t : Text) : Text := "\"".text ++ t.flatMap printChar ++ "\"".text

/-- Numbers in JSON are laid out as in messages, with JSON's words for the numbers that are none. -/
def numbers : Binary64.Layout :=
  { Binary64.shown with nan := "NaN".text, infinity := "Infinity".text }

/-- Where the items of a list or object go. -/
inductive Spacing where
  /-- Everything stands on one line. -/
  | oneLine
  /-- Every item stands on a line of its own, two spaces further in than what holds it. -/
  | indented

namespace Spacing

/-- What stands between the bracket or comma and the item behind it at a depth. -/
def lineBreak : Spacing → Nat → Text
  | .oneLine, _ => []
  | .indented, depth => "\n".text ++ Text.filled (2 * depth) ' '

/-- What stands between two items at a depth. -/
def comma : Spacing → Nat → Text
  | .oneLine, _ => ", ".text
  | .indented, depth => ",".text ++ lineBreak .indented depth

end Spacing

mutual

/-- Writes a value whose items would stand at `depth + 1`. -/
def printAt (spacing : Spacing) (depth : Nat) : Value → Text
  | .null => "null".text
  | .bool b => if b then "true".text else "false".text
  | .int n => Text.ofInt n
  | .float x => numbers.write x
  | .text t => printText t
  | .list [] | .tuple [] => "[]".text
  | .list items | .tuple items =>
    "[".text ++ spacing.lineBreak (depth + 1) ++ printItems spacing (depth + 1) items
      ++ spacing.lineBreak depth ++ "]".text
  | .record [] => "\x7b\x7d".text
  | .record members =>
    "\x7b".text ++ spacing.lineBreak (depth + 1) ++ printMembers spacing (depth + 1) members
      ++ spacing.lineBreak depth ++ "\x7d".text
  | .undefined => printText (Value.display .undefined)
  | .host object => printText object.shown

/-- Writes items that stand at `depth`. -/
def printItems (spacing : Spacing) (depth : Nat) : List Value → Text
  | [] => []
  | [item] => printAt spacing depth item
  | item :: next :: rest =>
    printAt spacing depth item ++ spacing.comma depth ++ printItems spacing depth (next :: rest)

/-- Writes members that stand at `depth`. -/
def printMembers (spacing : Spacing) (depth : Nat) : List (Text × Value) → Text
  | [] => []
  | [(name, value)] => printText name ++ ": ".text ++ printAt spacing depth value
  | (name, value) :: next :: rest =>
    printText name ++ ": ".text ++ printAt spacing depth value ++ spacing.comma depth
      ++ printMembers spacing depth (next :: rest)

end

/-- The value as a JSON text. -/
def print (spacing : Spacing) (v : Value) : Text := printAt spacing 0 v

end RpcContract.Json
