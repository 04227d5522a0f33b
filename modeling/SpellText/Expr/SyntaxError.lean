/-!
# Syntax errors of expressions

Why an expression cannot be read, and where: offsets count the bytes of the
UTF-8 form of the source.
-/

namespace SpellText.Expr

/-- The greatest height of an expression tree, and the greatest number of signs,
parentheses, exponents and argument lists around an operand, that operand's own
place included. -/
def depthLimit : Nat := 64

/-- What is wrong with a source text. -/
inductive SyntaxError
  /-- Nothing but blanks. -/
  | empty
  /-- A tree higher or an operand deeper than `depthLimit`. -/
  | tooDeep (offset : Nat)
  /-- A character that nothing can begin with here. -/
  | unexpected (found : Char) (offset : Nat)
  /-- The text ends where something has to follow. -/
  | endOfInput (offset : Nat)
  deriving DecidableEq, Repr

/-- The byte at which the source was given up. -/
def SyntaxError.offset : SyntaxError → Nat
  | .empty => 0
  | .tooDeep n => n
  | .unexpected _ n => n
  | .endOfInput n => n

/-- The complaint without its place. -/
def SyntaxError.complaint : SyntaxError → String
  | .empty => "empty expression"
  | .tooDeep _ => "expression nested deeper than " ++ toString depthLimit ++ " levels"
  | .unexpected c _ => "unexpected '" ++ c.toString ++ "'"
  | .endOfInput _ => "unexpected end of input"

/-- The complaint with its place. -/
def SyntaxError.message (e : SyntaxError) : String :=
  e.complaint ++ " at offset " ++ toString e.offset

end SpellText.Expr
