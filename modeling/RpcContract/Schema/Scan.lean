import RpcContract.Text.Basic

/-!
# Scanning type text

Type text is scanned one character at a time.  A scan knows whether it is inside a string literal
and how deep it is in brackets, so that scanning can be stopped and resumed anywhere.  A literal
ends at its own quote unless the character before that quote is a backslash.  Closing brackets
close any opening bracket, one too many is ignored, and the `>` of an arrow is no bracket.
-/

namespace RpcContract

/-- Whether the character opens and closes string literals. -/
def isQuote (c : CodePoint) : Bool := c == '"' || c == '\'' || c == '`'

/-- Whether the character opens a level of nesting. -/
def isOpener (c : CodePoint) : Bool := c == '\x7b' || c == '[' || c == '(' || c == '<'

/-- Whether the character closes a level of nesting. -/
def isCloser (c : CodePoint) : Bool := c == '\x7d' || c == ']' || c == ')' || c == '>'

/-- Where a scan stands with respect to string literals. -/
structure LiteralScan where
  /-- The quote of the literal that is open. -/
  quote : Option CodePoint
  /-- The character before. -/
  previous : Option CodePoint
  deriving Repr, DecidableEq

namespace LiteralScan

/-- Before the first character. -/
def start : LiteralScan := ⟨none, none⟩

/-- After one more character. -/
def next (s : LiteralScan) (c : CodePoint) : LiteralScan where
  quote := match s.quote with
    | some q => if c = q ∧ s.previous ≠ some '\\' then none else some q
    | none => if isQuote c then some c else none
  previous := some c

/-- Whether the character that comes next neither stands in a literal nor opens one. -/
def plain (s : LiteralScan) (c : CodePoint) : Bool := s.quote.isNone && !isQuote c

end LiteralScan

/-- Where a scan stands: in which literal and how deep in brackets. -/
structure Scan where
  literal : LiteralScan
  depth : Nat
  deriving Repr, DecidableEq

namespace Scan

/-- Before the first character. -/
def start : Scan := ⟨.start, 0⟩

/-- Whether the character closes a level; the `>` of an arrow does not. -/
def closes (s : Scan) (c : CodePoint) : Bool :=
  isCloser c && !(c == '>' && s.literal.previous == some '=')

/-- After one more character. -/
def next (s : Scan) (c : CodePoint) : Scan where
  literal := s.literal.next c
  depth :=
    if s.literal.plain c then
      if isOpener c then s.depth + 1
      else if s.closes c then s.depth - 1
      else s.depth
    else s.depth

/-- Whether the character that comes next stands at the top level: outside literals and brackets,
and no quote or bracket itself. -/
def sees (s : Scan) (c : CodePoint) : Bool :=
  s.literal.plain c && !isOpener c && !isCloser c && s.depth == 0

/-- After a whole text. -/
def run (s : Scan) (t : Text) : Scan := t.foldl next s

/-- The characters at the top level with their positions, counted from `offset`. -/
def topLevelFrom (s : Scan) (offset : Nat) : Text → List (Nat × CodePoint)
  | [] => []
  | c :: rest =>
    let later := topLevelFrom (s.next c) (offset + 1) rest
    if s.sees c then (offset, c) :: later else later

/-- The characters of a text at its top level with their positions. -/
def topLevel (t : Text) : List (Nat × CodePoint) := topLevelFrom start 0 t

/-- Splits a text at its first top-level colon into what stands before and behind it. -/
def splitColon? (s : Scan) : Text → Option (Text × Text)
  | [] => none
  | c :: rest =>
    if s.sees c && c == ':' then some ([], rest)
    else (splitColon? (s.next c) rest).map fun (before, behind) => (c :: before, behind)

theorem length_of_splitColon? {s : Scan} {t before behind : Text}
    (h : splitColon? s t = some (before, behind)) :
    before.length + 1 + behind.length = t.length := by
  induction t generalizing s before behind with
  | nil => simp [splitColon?] at h
  | cons c rest ih =>
    simp only [splitColon?] at h
    split at h
    · simp only [Option.some.injEq, Prod.mk.injEq] at h
      rw [← h.1, ← h.2]
      simp only [List.length_nil, List.length_cons]
      omega
    · cases hr : splitColon? (s.next c) rest with
      | none => simp [hr] at h
      | some parts =>
        obtain ⟨b, r⟩ := parts
        simp only [hr, Option.map_some, Option.some.injEq, Prod.mk.injEq] at h
        have := ih hr
        rw [← h.1, ← h.2]
        simp only [List.length_cons]
        omega

end Scan

/-- Where a scan that counts braces alone stands. -/
structure BraceScan where
  literal : LiteralScan
  depth : Nat
  deriving Repr, DecidableEq

namespace BraceScan

/-- Before the first character. -/
def start : BraceScan := ⟨.start, 0⟩

/-- After one more character; there is none after a closing brace that closes nothing. -/
def next? (s : BraceScan) (c : CodePoint) : Option BraceScan :=
  if s.literal.plain c && c == '\x7b' then some ⟨s.literal.next c, s.depth + 1⟩
  else if s.literal.plain c && c == '\x7d' then
    if s.depth = 0 then none else some ⟨s.literal.next c, s.depth - 1⟩
  else some ⟨s.literal.next c, s.depth⟩

/-- After a whole text. -/
def run? (s : BraceScan) : Text → Option BraceScan
  | [] => some s
  | c :: rest => (s.next? c).bind fun s' => run? s' rest

end BraceScan

/-- Whether the braces outside string literals match and every literal is closed. -/
def bracesMatch (t : Text) : Bool :=
  match BraceScan.start.run? t with
  | some s => s.depth == 0 && s.literal.quote.isNone
  | none => false

end RpcContract
