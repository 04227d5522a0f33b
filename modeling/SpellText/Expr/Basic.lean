import SpellText.Decimal.Shortest

/-!
# Expressions

The small arithmetic inside placeholders: names, numbers, signs, binary
operations and calls. Only *simple* expressions have values, those with nothing
but names, numbers, signs and the four basic operations; the others are there
so that they can be told from misspelt text.
-/

namespace SpellText

/-- A sign in front of an operand. -/
inductive Expr.Sign
  | plus
  | minus
  deriving DecidableEq, Repr

/-- A binary operation. -/
inductive Expr.Op
  | add | sub | mul | div | rem | pow | lt | gt | le | ge | eq | ne
  deriving DecidableEq, Repr

/-- An expression tree. -/
inductive Expr
  | number (x : Float)
  /-- A name, which may hold dots. -/
  | name (s : String)
  | signed (sign : Expr.Sign) (operand : Expr)
  | binary (op : Expr.Op) (left right : Expr)
  | call (function : String) (args : List Expr)

namespace Expr

instance : Inhabited Expr := ⟨name ""⟩

/-- One of the four operations that have a value. -/
def Op.isArithmetic : Op → Bool
  | add | sub | mul | div => true
  | _ => false

/-- How the operation is written. -/
def Op.symbol : Op → String
  | add => "+"
  | sub => "-"
  | mul => "*"
  | div => "/"
  | rem => "%"
  | pow => "**"
  | lt => "<"
  | gt => ">"
  | le => "<="
  | ge => ">="
  | eq => "=="
  | ne => "!="

mutual

/-- The height of the tree; a leaf has height one. -/
def height : Expr → Nat
  | number _ => 1
  | name _ => 1
  | signed _ e => e.height + 1
  | binary _ l r => max l.height r.height + 1
  | call _ args => tallest args + 1

/-- The height of the tallest tree. -/
def tallest : List Expr → Nat
  | [] => 0
  | e :: rest => max e.height (tallest rest)

end

/-- Nothing but names, numbers, signs and the four basic operations. -/
def isSimple : Expr → Bool
  | number _ => true
  | name _ => true
  | signed _ e => e.isSimple
  | binary op l r => op.isArithmetic && l.isSimple && r.isSimple
  | call _ _ => false

/-- How often names occur, those inside of calls left out. -/
def nameCount : Expr → Nat
  | number _ => 0
  | name _ => 1
  | signed _ e => e.nameCount
  | binary _ l r => l.nameCount + r.nameCount
  | call _ _ => 0

/-- A few words on the topmost node. -/
def describe : Expr → String
  | number x => "number " ++ String.ofList (Decimal.plainText x)
  | name s => "name '" ++ s ++ "'"
  | signed .plus _ => "unary Plus"
  | signed .minus _ => "unary Neg"
  | binary op _ _ => "operator '" ++ op.symbol ++ "'"
  | call f args => "call " ++ f ++ "() with " ++ toString args.length ++ " args"

end Expr

end SpellText
