import RpcContract.Text.Basic

/-!
# Capitals

The capitals of ASCII that texts have when they are written in capitals.  Besides the small letters
of ASCII a few others become capitals of ASCII: the dotless i, the long and the sharp s, and the
ligatures that are short for several letters.  Every other code point is kept, since its capital,
if it has one, is not in ASCII.
-/

namespace RpcContract.Text

/-- The code points outside ASCII whose capitals are in ASCII. -/
def capitalsBeyondAscii : List (CodePoint × Text) :=
  [('ß', "SS".text), ('ı', "I".text), ('ſ', "S".text), ('ﬀ', "FF".text), ('ﬁ', "FI".text),
   ('ﬂ', "FL".text), ('ﬃ', "FFI".text), ('ﬄ', "FFL".text), ('ﬅ', "ST".text), ('ﬆ', "ST".text)]

/-- A code point in capitals. -/
def capital (c : CodePoint) : Text :=
  match capitalsBeyondAscii.lookup c, c with
  | some capitals, _ => capitals
  | none, .char c => [.char c.toUpper]
  | none, c => [c]

/-- The text in capitals. -/
def capitals (t : Text) : Text := t.flatMap capital

end RpcContract.Text
