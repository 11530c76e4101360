import RpcContract.Text.Printable

/-!
# Quoted texts

How a text is shown inside a message or inside a larger value: between quotes, on one line, with
everything unprintable escaped.  Single quotes are taken unless the text holds a single quote and
no double quote.
-/

namespace RpcContract

namespace Text

/-- One hexadecimal digit, in lower case. -/
def hexDigit (n : Nat) : CodePoint :=
  if n < 10 then .ofNat (0x30 + n) else .ofNat (0x57 + n)

/-- The lowest `width` hexadecimal digits of `n`, most significant first. -/
def hexDigits : Nat → Nat → Text
  | 0, _ => []
  | width + 1, n => hexDigits width (n / 16) ++ [hexDigit (n % 16)]

/-- The quote that a text is shown between. -/
def quoteFor (t : Text) : CodePoint :=
  if t.contains (.char '\'') && !t.contains (.char '"') then '"' else '\''

/-- One code point as it is shown between `quote` and `quote`. -/
def quoteChar (quote c : CodePoint) : Text :=
  if c == quote || c == '\\' then [.char '\\', c]
  else if c == '\n' then "\\n".text
  else if c == '\r' then "\\r".text
  else if c == '\t' then "\\t".text
  else if isPrintable c then [c]
  else if c.toNat < 0x100 then "\\x".text ++ hexDigits 2 c.toNat
  else if c.toNat < 0x10000 then "\\u".text ++ hexDigits 4 c.toNat
  else "\\U".text ++ hexDigits 8 c.toNat

/-- The text between quotes. -/
def quoted (t : Text) : Text :=
  let quote := quoteFor t
  quote :: t.flatMap (quoteChar quote) ++ [quote]

end Text

end RpcContract
