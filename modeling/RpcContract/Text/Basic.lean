/-!
# Text

A text is the list of its code points, so every position and every length in this library counts
code points.  The scanners, the compiler and the printers are folds and recursions over that list;
`String` appears only where a text is written down in this library or leaves it.
-/

namespace RpcContract

/-- A code point: a character, or a surrogate, which is one half of a pair of 16-bit units and
stands for no character by itself.  JSON can escape such halves one at a time. -/
inductive CodePoint where
  | char (c : Char)
  /-- The code point `U+D800` or one of the 2047 behind it. -/
  | surrogate (index : Fin 2048)
  deriving Repr, DecidableEq, Inhabited

namespace CodePoint

instance : Coe Char CodePoint := ⟨.char⟩

/-- The number of the code point. -/
def toNat : CodePoint → Nat
  | .char c => c.toNat
  | .surrogate index => 0xD800 + index.val

/-- The code point with a number. -/
def ofNat (n : Nat) : CodePoint :=
  if h : 0xD800 ≤ n ∧ n < 0xE000 then .surrogate ⟨n - 0xD800, by omega⟩ else .char (Char.ofNat n)

/-- Whether the code point is a character of a class. -/
def isIn (p : Char → Bool) : CodePoint → Bool
  | .char c => p c
  | .surrogate _ => false

/-- Whether the code point is a surrogate. -/
def isSurrogate : CodePoint → Bool
  | .char _ => false
  | .surrogate _ => true

/-- The code point with the letters of ASCII in lower case. -/
def toLower : CodePoint → CodePoint
  | .char c => .char c.toLower
  | c => c

/-- Whether the code point is one of the digits 0 to 9. -/
def isDigit (c : CodePoint) : Bool := c.isIn Char.isDigit

/-- The number of bytes that the code point takes in UTF-8. -/
def utf8Size : CodePoint → Nat
  | .char c => c.utf8Size
  | .surrogate _ => 3

end CodePoint

/-- A text, as its code points in order. -/
abbrev Text := List CodePoint

end RpcContract

/-- The text that a string holds. -/
def String.text (s : String) : RpcContract.Text := s.toList.map .char

namespace RpcContract.Text

/-- The string that shows a text; a surrogate is shown by the replacement character. -/
def toString (t : Text) : String :=
  String.ofList (t.map fun
    | .char c => c
    | .surrogate _ => '\uFFFD')

/-- A code point written a number of times. -/
def filled (n : Nat) (c : CodePoint) : Text := List.replicate n c

/-- Whether `suffix` ends the text. -/
def endsWith (t suffix : Text) : Bool := suffix.isSuffixOf t

/-- The texts written one after the other with `separator` between neighbours. -/
def join (separator : Text) : List Text → Text
  | [] => []
  | [t] => t
  | t :: u :: rest => t ++ separator ++ join separator (u :: rest)

/-- The pieces of a text between the places where `separator` stands. -/
def split (separator : CodePoint) : Text → List Text
  | [] => [[]]
  | c :: rest =>
    if c = separator then [] :: split separator rest
    else
      match split separator rest with
      | [] => [[c]]
      | piece :: pieces => (c :: piece) :: pieces

/-- The text with every line end written as a line feed. -/
def unifyLines : Text → Text
  | .char '\r' :: .char '\n' :: rest => .char '\n' :: unifyLines rest
  | .char '\r' :: rest => .char '\n' :: unifyLines rest
  | c :: rest => c :: unifyLines rest
  | [] => []

/-- Code point order, the order in which names are listed when they are sorted. -/
def le : Text → Text → Bool
  | [], _ => true
  | _ :: _, [] => false
  | c :: t, d :: u => c.toNat < d.toNat || (c == d && le t u)

/-- The names in code point order. -/
def sort (names : List Text) : List Text := names.mergeSort le

/-- The number of bytes that the text takes in UTF-8. -/
def utf8Size (t : Text) : Nat := (t.map CodePoint.utf8Size).foldl (· + ·) 0

end RpcContract.Text
