import SpellText.Expr.Parser
import SpellText.Formula.Evaluation

/-!
# Values of expressions

The amount of an expression, given the amounts of the names in it. Operands are
evaluated from left to right before their operation.

Texts are evaluated under a guard (`evaluateText`): only a simple expression
with exactly one name in it is calculated.
-/

namespace SpellText.Expr

open Formula (Lookup)

/-- The amount of an operation on two amounts; `none` for the operations without one. -/
def Op.result? (a b : Amount) : Op → Option (Except Fault Amount)
  | .add => some (.ok (a + b))
  | .sub => some (.ok (a - b))
  | .mul => some (a.times b)
  | .div => some (a.dividedBy b)
  | _ => none

/-- The amount with a sign in front. -/
def Sign.apply (a : Amount) : Sign → Amount
  | .plus => a
  | .minus => -a

/-- The amount of an expression. -/
def evaluate (lookup : Lookup) : Expr → Except Fault Amount
  | number x => .ok (.ofNumber x)
  | name s => lookup s
  | signed sign e => do
    let a ← e.evaluate lookup
    return sign.apply a
  | binary op l r => do
    let a ← l.evaluate lookup
    let b ← r.evaluate lookup
    (op.result? a b).getD (.error (.unsupportedExpression (binary op l r).describe))
  | call f args => .error (.unsupportedExpression (call f args).describe)

/-- The expression is one that is calculated: simple, with one name in it. -/
def isCalculated (e : Expr) : Bool := e.isSimple && e.nameCount == 1

/-- The amount of the expression that `source` is. -/
def evaluateText (lookup : Lookup) (source : String) : Except Fault Amount :=
  match parse source with
  | .error e => .error (.invalidSyntax source e)
  | .ok e => if e.isCalculated then e.evaluate lookup else .error (.complexExpression source)

end SpellText.Expr
