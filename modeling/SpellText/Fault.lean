import SpellText.Expr.SyntaxError

/-!
# Faults

Why a placeholder cannot be turned into text. Every cause has a fixed wording
(`Fault.message`), a code for tools (`Fault.code`) and a severity: only an
expression that is too complex is passed over in silence.
-/

namespace SpellText

/-- Why a placeholder stays as it is. -/
inductive Fault
  /-- More than one name, or an operation that is not calculated. -/
  | complexExpression (source : String)
  /-- The placeholder is no expression. -/
  | invalidSyntax (source : String) (error : Expr.SyntaxError)
  /-- A node of an expression that has no value. -/
  | unsupportedExpression (description : String)
  /-- A part of a formula of a kind without a rule. -/
  | unsupportedPart (kind : String)
  /-- No number of the ability or stat of the champion has this name. -/
  | unknownPlaceholder (name ability : String)
  /-- A reference to an ability that the champion does not have. -/
  | unknownReference (reference : String)
  /-- A reference without anything to look up. -/
  | malformedReference (text : String)
  /-- A product of two sequences of ranks. -/
  | nonScalarProduct
  /-- Division by a sequence of ranks. -/
  | nonScalarDivisor
  /-- Division by zero. -/
  | divisionByZero
  /-- A list of effect amounts with a piece that is not a number. -/
  | invalidEffectBurn (text : String)
  /-- Formulas that refer to each other through too many levels. -/
  | formulaTooDeep (name : String) (limit : Nat)
  deriving DecidableEq, Repr

/-- Whether a fault is reported. -/
inductive Severity
  /-- Passed over in silence. -/
  | skip
  /-- Reported. -/
  | failure
  deriving DecidableEq, Repr

namespace Fault

/-- An expression that is too complex is passed over; everything else is reported. -/
def severity : Fault → Severity
  | complexExpression _ => .skip
  | _ => .failure

/-- The code by which tools know the cause. -/
def code : Fault → String
  | complexExpression _ => "RESOLVE_COMPLEX_EXPRESSION"
  | invalidSyntax _ _ => "RESOLVE_INVALID_SYNTAX"
  | unsupportedExpression _ => "RESOLVE_UNSUPPORTED_EXPRESSION"
  | unsupportedPart _ => "RESOLVE_UNSUPPORTED_CALCULATION_PART"
  | unknownPlaceholder _ _ => "RESOLVE_UNKNOWN_PLACEHOLDER"
  | unknownReference _ => "RESOLVE_UNKNOWN_SPELL_REFERENCE"
  | malformedReference _ => "RESOLVE_MALFORMED_SPELL_REFERENCE"
  | nonScalarProduct => "RESOLVE_NON_SCALAR_PRODUCT"
  | nonScalarDivisor => "RESOLVE_NON_SCALAR_DIVISOR"
  | divisionByZero => "RESOLVE_DIVISION_BY_ZERO"
  | invalidEffectBurn _ => "RESOLVE_INVALID_EFFECT_BURN"
  | formulaTooDeep _ _ => "RESOLVE_FORMULA_DEPTH_EXCEEDED"

/-- The cause in words. -/
def message : Fault → String
  | complexExpression source => "Expression requires complex calculation: " ++ source
  | invalidSyntax source error =>
    "Invalid expression syntax in '" ++ source ++ "': " ++ error.message
  | unsupportedExpression description => "Unsupported expression: " ++ description
  | unsupportedPart kind => "Unsupported calculation part '" ++ kind ++ "'"
  | unknownPlaceholder name ability =>
    "Unknown placeholder '" ++ name ++ "' for ability " ++ ability
  | unknownReference reference => "Unknown spell reference '" ++ reference ++ "'"
  | malformedReference text => "Malformed spell reference '" ++ text ++ "'"
  | nonScalarProduct => "Multiplication of non-scalar values is not supported"
  | nonScalarDivisor => "Division by non-scalar values is not supported"
  | divisionByZero => "Division by zero"
  | invalidEffectBurn text => "Invalid effect burn value '" ++ text ++ "'"
  | formulaTooDeep name limit =>
    "Formula nesting exceeds " ++ toString limit ++ " levels while resolving '" ++ name ++ "'"

end Fault

/-! ## Steps that may fail -/

section

variable {ε α β : Type}

theorem toOption_eq_some_iff {x : Except ε α} {a : α} : x.toOption = some a ↔ x = .ok a := by
  cases x <;> simp [Except.toOption]

/-- A step without a fault has a value. -/
theorem exists_eq_ok_of_toBool {x : Except ε α} (h : x.toBool = true) : ∃ a, x = .ok a := by
  cases x with
  | ok a => exact ⟨a, rfl⟩
  | error _ => cases h

/-- A step that does not succeed has a fault. -/
theorem exists_eq_error_of_toBool {x : Except ε α} (h : x.toBool = false) :
    ∃ e, x = .error e := by
  cases x with
  | ok a => cases h
  | error e => exact ⟨e, rfl⟩

/-- Two steps succeed where each of them does. -/
theorem bind_eq_ok {x : Except ε α} {k : α → Except ε β} {b : β} :
    x >>= k = .ok b ↔ ∃ a, x = .ok a ∧ k a = .ok b := by
  cases x <;> simp [bind, Except.bind]

/-- Two steps fail where the first one does, or the second one after it. -/
theorem bind_eq_error {x : Except ε α} {k : α → Except ε β} {e : ε} :
    x >>= k = .error e ↔ x = .error e ∨ ∃ a, x = .ok a ∧ k a = .error e := by
  cases x <;> simp [bind, Except.bind]

/-- A value is changed where there is one. -/
theorem map_eq_ok {x : Except ε α} {f : α → β} {b : β} :
    x.map f = .ok b ↔ ∃ a, x = .ok a ∧ f a = b := by
  cases x <;> simp [Except.map]

/-- The fault stays as it is. -/
theorem map_eq_error {x : Except ε α} {f : α → β} {e : ε} :
    x.map f = .error e ↔ x = .error e := by
  cases x <;> simp [Except.map]

end

end SpellText
