/-!
# Byte order marks

The mark that may stand at the very start of a file and is no part of its text.
-/

namespace SpellText.Text

/-- The mark of byte order. -/
def byteOrderMark : Char := Char.ofNat 0xFEFF

/-- The text behind a mark of byte order, if there is one. -/
def dropByteOrderMark : List Char → List Char
  | [] => []
  | c :: s => if c = byteOrderMark then s else c :: s

end SpellText.Text
