import RpcContract.Text.Basic

/-!
# White space

The characters that separate words, and the trimming of them.  The set is Unicode's white space
together with the four information separators U+001C to U+001F; the byte order mark U+FEFF and the
zero width space U+200B are not in it.
-/

namespace RpcContract

namespace Text

/-- The code point ranges of white space. -/
def blankRanges : List (Nat × Nat) :=
  [(0x09, 0x0D), (0x1C, 0x20), (0x85, 0x85), (0xA0, 0xA0), (0x1680, 0x1680), (0x2000, 0x200A),
   (0x2028, 0x2029), (0x202F, 0x202F), (0x205F, 0x205F), (0x3000, 0x3000)]

/-- Whether the code point lies in one of the ranges. -/
def inRanges (ranges : List (Nat × Nat)) (code : Nat) : Bool :=
  ranges.any fun range => range.1 ≤ code && code ≤ range.2

/-- Whether the code point is white space. -/
def isBlank (c : CodePoint) : Bool := inRanges blankRanges c.toNat

/-- The text without the white space at its start. -/
def trimLeft (t : Text) : Text := t.dropWhile isBlank

/-- The text without the white space at its end. -/
def trimRight (t : Text) : Text := (t.reverse.dropWhile isBlank).reverse

/-- The text without the white space at either end. -/
def trim (t : Text) : Text := trimRight (trimLeft t)

end Text

end RpcContract
