import SpellText.Proofs.Grammar.Literal

/-!
# The grammar of expressions

```text
comparison  := additive (("<" | ">" | "<=" | ">=" | "==" | "!=") additive)*
additive    := term (("+" | "-") term)*
term        := unary (("*" | "/" | "%") unary)*
unary       := ("+" | "-") unary | power
power       := primary ("**" unary)?
primary     := "(" comparison ")" | number | name | name "(" arguments ")"
```

`Derives l s c` says that the text `s` as a whole is the phrase `c` of the level
`l` of the grammar, with blanks around the tokens. A phrase is an expression
together with the parentheses that it is written with (`Phrase.expr` leaves them
out). Nothing here knows how a text is read, or limits what can be written.

`Phrase.nesting` counts the signs, parentheses, exponent positions and argument
lists around the innermost operand. `Phrase.reach` counts the inside of an empty
argument list like an operand : an argument is looked for there.
-/

namespace SpellText.Expr

/-! ## Phrases -/

/-- An expression with its parentheses. -/
inductive Phrase
  | number (x : Float)
  | name (s : String)
  | call (function : String) (args : List Phrase)
  | parens (inner : Phrase)
  | signed (sign : Sign) (operand : Phrase)
  | binary (op : Op) (left right : Phrase)

namespace Phrase

mutual

/-- The expression. -/
def expr : Phrase → Expr
  | number x => .number x
  | name s => .name s
  | call f args => .call f (exprs args)
  | parens c => c.expr
  | signed sign c => .signed sign c.expr
  | binary op l r => .binary op l.expr r.expr

def exprs : List Phrase → List Expr
  | [] => []
  | c :: cs => c.expr :: exprs cs

end

mutual

/-- The most enclosures around any operand, where an empty argument list counts
for `empty` of them. -/
def enclosures (empty : Nat) : Phrase → Nat
  | number _ => 0
  | name _ => 0
  | call _ args => if args.isEmpty then empty else enclosuresOfArgs empty args + 1
  | parens c => c.enclosures empty + 1
  | signed _ c => c.enclosures empty + 1
  | binary op l r =>
    max (l.enclosures empty) (if op = .pow then r.enclosures empty + 1 else r.enclosures empty)

def enclosuresOfArgs (empty : Nat) : List Phrase → Nat
  | [] => 0
  | c :: cs => max (c.enclosures empty) (enclosuresOfArgs empty cs)

end

/-- The most signs, parentheses, exponent positions and argument lists around an operand. -/
def nesting (c : Phrase) : Nat := c.enclosures 0

/-- The most signs, parentheses, exponent positions and argument lists around a
place where an operand is looked for. -/
def reach (c : Phrase) : Nat := c.enclosures 1

/-- The furthest reach of any argument. -/
def reachOfArgs (cs : List Phrase) : Nat := enclosuresOfArgs 1 cs

theorem reach_call (f : String) (cs : List Phrase) : (call f cs).reach = reachOfArgs cs + 1 := by
  cases cs with
  | nil => rfl
  | cons c cs => rfl

theorem reachOfArgs_cons (c : Phrase) (cs : List Phrase) :
    reachOfArgs (c :: cs) = max c.reach (reachOfArgs cs) :=
  rfl

theorem reach_parens (c : Phrase) : (parens c).reach = c.reach + 1 := rfl

theorem reach_signed (sign : Sign) (c : Phrase) : (signed sign c).reach = c.reach + 1 := rfl

theorem reach_pow (l r : Phrase) : (binary .pow l r).reach = max l.reach (r.reach + 1) := rfl

theorem reach_binary {op : Op} (h : op ≠ .pow) (l r : Phrase) :
    (binary op l r).reach = max l.reach r.reach := by
  rw [reach, enclosures, if_neg h]
  rfl

end Phrase

/-! ## Tokens -/

/-- Nothing but blanks. -/
def Blanks (s : List Char) : Prop := ∀ c ∈ s, isSpace c = true

/-- The token `t` with blanks around it. -/
def Spaced (t s : List Char) : Prop := ∃ a b, Blanks a ∧ Blanks b ∧ s = a ++ (t ++ b)

/-- A letter or an underscore, and further letters, digits, underscores and dots. -/
def IsName (t : List Char) : Prop :=
  ∃ c t', t = c :: t' ∧ isNameStart c = true ∧ ∀ d ∈ t', isNameRest d = true

/-- An unsigned decimal. -/
def IsLiteral (t : List Char) : Prop := ∃ p : Decimal.Parts, p.Spells t

/-- How a sign is written. -/
def Sign.char : Sign → Char
  | plus => '+'
  | minus => '-'

/-! ## Levels -/

/-- The levels of the grammar, the loosest binding first. -/
inductive Level
  | comparison | additive | term | unary | power | primary
  deriving DecidableEq

/-- The level whose operators stand between the operands of a chain. -/
def Op.level : Op → Level
  | lt | gt | le | ge | eq | ne => .comparison
  | add | sub => .additive
  | mul | div | rem => .term
  | pow => .power

/-- The operands of a level that is a chain. -/
def Level.operand? : Level → Option Level
  | comparison => some additive
  | additive => some term
  | term => some unary
  | _ => none

mutual

/-- The text is a phrase of the level. -/
inductive Derives : Level → List Char → Phrase → Prop
  /-- Operands with operators between them. -/
  | chain {l l' : Level} {s s' : List Char} {c c' : Phrase} :
    l.operand? = some l' → Derives l' s c → Continues l l' c s' c' → Derives l (s ++ s') c'
  | signed {sign : Sign} {o s : List Char} {c : Phrase} :
    Spaced [sign.char] o → Derives .unary s c → Derives .unary (o ++ s) (.signed sign c)
  | unsigned {s : List Char} {c : Phrase} : Derives .power s c → Derives .unary s c
  | power {s o s' : List Char} {c c' : Phrase} :
    Derives .primary s c → Spaced Op.pow.symbol.toList o → Derives .unary s' c' →
      Derives .power (s ++ (o ++ s')) (.binary .pow c c')
  | base {s : List Char} {c : Phrase} : Derives .primary s c → Derives .power s c
  | parens {o s o' : List Char} {c : Phrase} :
    Spaced ['('] o → Derives .comparison s c → Spaced [')'] o' →
      Derives .primary (o ++ (s ++ o')) (.parens c)
  /-- The value of a literal is that of its text. -/
  | number {t s : List Char} {x : Float} :
    IsLiteral t → Decimal.float? t = some x → Spaced t s → Derives .primary s (.number x)
  | name {t s : List Char} :
    IsName t → Spaced t s → Derives .primary s (.name (String.ofList t))
  | call {t s o s' o' : List Char} {cs : List Phrase} :
    IsName t → Spaced t s → Spaced ['('] o → Arguments s' cs → Spaced [')'] o' →
      Derives .primary (s ++ (o ++ (s' ++ o'))) (.call (String.ofList t) cs)

/-- Further operators and operands behind the phrase `c` make it the phrase `c'`. -/
inductive Continues : Level → Level → Phrase → List Char → Phrase → Prop
  | nil {l l' : Level} {c : Phrase} : Continues l l' c [] c
  | cons {l l' : Level} {op : Op} {o s s' : List Char} {c d c' : Phrase} :
    op.level = l → Spaced op.symbol.toList o → Derives l' s d →
      Continues l l' (.binary op c d) s' c' → Continues l l' c (o ++ (s ++ s')) c'

/-- No arguments, or arguments with commas between them. -/
inductive Arguments : List Char → List Phrase → Prop
  | none : Arguments [] []
  | some {s s' : List Char} {c : Phrase} {cs : List Phrase} :
    Derives .comparison s c → Further s' cs → Arguments (s ++ s') (c :: cs)

/-- Further arguments, each behind a comma. -/
inductive Further : List Char → List Phrase → Prop
  | nil : Further [] []
  | cons {o s s' : List Char} {c : Phrase} {cs : List Phrase} :
    Spaced [','] o → Derives .comparison s c → Further s' cs → Further (o ++ (s ++ s')) (c :: cs)

end

end SpellText.Expr
