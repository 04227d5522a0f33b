import SpellText.Decimal.Reading
import SpellText.Expr.Basic
import SpellText.Expr.SyntaxError
import SpellText.Text.Blank

/-!
# Reading expressions

The grammar, with the loosest binding first:

```text
comparison  := additive (("<" | ">" | "<=" | ">=" | "==" | "!=") additive)*
additive    := term (("+" | "-") term)*
term        := unary (("*" | "/" | "%") unary)*
unary       := ("+" | "-") unary | power
power       := primary ("**" unary)?
primary     := "(" comparison ")" | number | name | name "(" arguments ")"
```

Each reader takes the text that is left and gives back a tree with the rest
behind it, or the place where it gave up (`Outcome`). Chains of operators lean
to the left. The level of nesting is an argument of `unary`, through which every
operand is read, so that hostile input is refused before it grows deep. The
readers work with any limit on the height of trees; texts are read with
`depthLimit`, which is also the depth that `unary` starts with.
-/

namespace SpellText.Expr

/-- What a reader makes of the text before it. -/
inductive Outcome (α : Type)
  /-- A value and the text behind it. -/
  | done (value : α) (rest : List Char)
  /-- Nothing that fits stands at `rest`. -/
  | unexpected (rest : List Char)
  /-- The tree is too high or the operand at `rest` too deep. -/
  | tooDeep (rest : List Char)

namespace Outcome

variable {α β : Type}

/-- Go on behind the value. -/
def andThen (o : Outcome α) (k : α → List Char → Outcome β) : Outcome β :=
  match o with
  | done a rest => k a rest
  | unexpected rest => unexpected rest
  | tooDeep rest => tooDeep rest

theorem andThen_eq_done {o : Outcome α} {k : α → List Char → Outcome β} {b : β} {rest : List Char} :
    o.andThen k = done b rest ↔ ∃ a r, o = done a r ∧ k a r = done b rest := by
  cases o with
  | done a r =>
    constructor
    · exact fun h => ⟨a, r, rfl, h⟩
    · rintro ⟨_, _, h, hk⟩
      cases h
      exact hk
  | unexpected | tooDeep => simp [andThen]

end Outcome

/-- A reader of trees. -/
abbrev Reader := List Char → Outcome Expr

/-! ## Tokens -/

/-- The blanks that may stand between tokens. -/
def isSpace (c : Char) : Bool := c == ' ' || c == '\t' || c == '\r' || c == '\n'

/-- The text after leading blanks. -/
def skipSpace (s : List Char) : List Char := s.dropWhile isSpace

/-- The text behind the character `c` and the blanks around it. -/
def symbol? (c : Char) (s : List Char) : Option (List Char) :=
  match skipSpace s with
  | d :: rest => if d = c then some (skipSpace rest) else none
  | [] => none

/-- A comparison sign. -/
def comparisonOp? (s : List Char) : Option (Op × List Char) :=
  match skipSpace s with
  | '<' :: '=' :: rest => some (.le, skipSpace rest)
  | '>' :: '=' :: rest => some (.ge, skipSpace rest)
  | '=' :: '=' :: rest => some (.eq, skipSpace rest)
  | '!' :: '=' :: rest => some (.ne, skipSpace rest)
  | '<' :: rest => some (.lt, skipSpace rest)
  | '>' :: rest => some (.gt, skipSpace rest)
  | _ => none

/-- A plus or minus between operands. -/
def additiveOp? (s : List Char) : Option (Op × List Char) :=
  match skipSpace s with
  | '+' :: rest => some (.add, skipSpace rest)
  | '-' :: rest => some (.sub, skipSpace rest)
  | _ => none

/-- A product or quotient sign; two stars are not a product. -/
def termOp? (s : List Char) : Option (Op × List Char) :=
  match skipSpace s with
  | '*' :: '*' :: _ => none
  | '*' :: rest => some (.mul, skipSpace rest)
  | '/' :: rest => some (.div, skipSpace rest)
  | '%' :: rest => some (.rem, skipSpace rest)
  | _ => none

/-- A sign in front of an operand. -/
def sign? (s : List Char) : Option (Sign × List Char) :=
  match skipSpace s with
  | '-' :: rest => some (.minus, skipSpace rest)
  | '+' :: rest => some (.plus, skipSpace rest)
  | _ => none

/-- The two stars of a power. -/
def powerSign? (s : List Char) : Option (List Char) :=
  match skipSpace s with
  | '*' :: '*' :: rest => some (skipSpace rest)
  | _ => none

/-- A number. -/
def number? (s : List Char) : Option (Expr × List Char) :=
  (Decimal.unsigned? (skipSpace s)).map fun (p, rest) => (.number p.value, skipSpace rest)

/-- A name begins with an ASCII letter or an underscore. -/
def isNameStart (c : Char) : Bool := c == '_' || c.isAlpha

/-- A name goes on with ASCII letters, digits, underscores and dots. -/
def isNameRest (c : Char) : Bool := c == '_' || c == '.' || c.isAlphanum

/-- A name. -/
def name? (s : List Char) : Option (String × List Char) :=
  match skipSpace s with
  | c :: rest =>
    if isNameStart c then
      some (String.ofList (c :: rest.takeWhile isNameRest), skipSpace (rest.dropWhile isNameRest))
    else none
  | [] => none

/-! ## Trees -/

variable (limit : Nat)

/-- The tree `e`, unless it is higher than `limit`; `place` is where that is noticed. -/
def grown (place : List Char) (e : Expr) (rest : List Char) : Outcome Expr :=
  if limit < e.height then .tooDeep place else .done e rest

theorem grown_eq_done {limit : Nat} {place : List Char} {e e' : Expr} {rest rest' : List Char} :
    grown limit place e rest = .done e' rest' ↔ e.height ≤ limit ∧ e = e' ∧ rest = rest' := by
  unfold grown
  split <;> simp <;> omega

/-- Further operators and operands behind `left`. Every round makes the tree
higher, so that the limit on its height bounds the rounds as well. -/
def chainRest (op? : List Char → Option (Op × List Char)) (operand : Reader) :
    Nat → Expr → List Char → Outcome Expr
  | 0, left, s => .done left s
  | rounds + 1, left, s =>
    match op? s with
    | none => .done left s
    | some (op, next) =>
      (operand next).andThen fun right rest =>
        (grown limit s (.binary op left right) rest).andThen (chainRest op? operand rounds)

/-- Operands with operators between them, leaning to the left. -/
def chain (op? : List Char → Option (Op × List Char)) (operand : Reader) : Reader := fun s =>
  (operand s).andThen fun left rest => chainRest limit op? operand limit left rest

/-- A comparison, given how its innermost operands are read. -/
def comparison (operand : Reader) : Reader :=
  chain limit comparisonOp? (chain limit additiveOp? (chain limit termOp? operand))

/-- Further arguments behind `done` (the latest first). A comma without an
argument after it is left in the text. Every round takes at least the comma off
the text; a copy of it bounds the rounds. -/
def argumentsRest (argument : Reader) : List Char → List Expr → List Char → Outcome (List Expr)
  | [], done, s => .done done.reverse s
  | _ :: rounds, done, s =>
    match symbol? ',' s with
    | none => .done done.reverse s
    | some next =>
      match argument next with
      | .done e rest => argumentsRest argument rounds (e :: done) rest
      | .unexpected _ => .done done.reverse s
      | .tooDeep place => .tooDeep place

/-- Arguments divided by commas, or none at all. -/
def arguments (argument : Reader) (s : List Char) : Outcome (List Expr) :=
  match argument s with
  | .done e rest => argumentsRest argument rest [e] rest
  | .unexpected _ => .done [] s
  | .tooDeep place => .tooDeep place

/-- A name, or a call if an argument list in parentheses follows. Without its
closing parenthesis the list is left in the text. -/
def nameOrCall (operand : Reader) : Reader := fun s =>
  match name? s with
  | none => .unexpected (skipSpace s)
  | some (f, rest) =>
    match symbol? '(' rest with
    | none => .done (.name f) rest
    | some inside =>
      (arguments (comparison limit operand) inside).andThen fun args afterArgs =>
        match symbol? ')' afterArgs with
        | none => .done (.name f) rest
        | some behind => grown limit behind (.call f args) behind

/-- An operand without sign and exponent. -/
def primary (operand : Reader) : Reader := fun s =>
  match symbol? '(' s with
  | some inside =>
    (comparison limit operand inside).andThen fun e rest =>
      match symbol? ')' rest with
      | some behind => .done e behind
      | none => .unexpected (skipSpace rest)
  | none =>
    match number? s with
    | some (e, rest) => .done e rest
    | none => nameOrCall limit operand s

/-- An operand with an optional exponent. -/
def power (operand : Reader) : Reader := fun s =>
  (primary limit operand s).andThen fun base rest =>
    match powerSign? rest with
    | none => .done base rest
    | some next =>
      (operand next).andThen fun exponent behind =>
        grown limit rest (.binary .pow base exponent) behind

/-- An operand with its signs; `depth` levels of nesting are still allowed. -/
def unary : Nat → Reader
  | 0 => .tooDeep
  | depth + 1 => fun s =>
    match sign? s with
    | some (sign, next) =>
      (unary depth next).andThen fun e rest => grown limit s (.signed sign e) rest
    | none => power limit (unary depth) s

variable {limit : Nat} {s : List Char}

theorem unary_of_sign {sign : Sign} {next : List Char} (h : sign? s = some (sign, next))
    (depth : Nat) : unary limit (depth + 1) s
      = (unary limit depth next).andThen fun e rest => grown limit s (.signed sign e) rest := by
  rw [unary]
  simp only [h]

theorem unary_of_no_sign (h : sign? s = none) (depth : Nat) :
    unary limit (depth + 1) s = power limit (unary limit depth) s := by
  rw [unary]
  simp only [h]

/-! ## Texts -/

/-- The number of bytes of the text in UTF-8. -/
def byteLength (s : List Char) : Nat := s.foldr (fun c n => c.utf8Size + n) 0

/-- Read a text as a whole. -/
def parseChars (s : List Char) : Except SyntaxError Expr :=
  if (Text.trim s).isEmpty then .error .empty
  else
    let offset (rest : List Char) := byteLength s - byteLength rest
    let stuck (rest : List Char) : SyntaxError :=
      match rest with
      | c :: _ => .unexpected c (offset rest)
      | [] => .endOfInput (offset rest)
    match comparison depthLimit (unary depthLimit depthLimit) s with
    | .done e [] => .ok e
    | .done _ rest => .error (stuck rest)
    | .unexpected rest => .error (stuck rest)
    | .tooDeep rest => .error (.tooDeep (offset rest))

/-- Read a source text. -/
def parse (source : String) : Except SyntaxError Expr := parseChars source.toList

end SpellText.Expr
