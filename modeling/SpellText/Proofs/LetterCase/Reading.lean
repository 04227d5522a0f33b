import SpellText.Expr.Evaluation
import SpellText.Proofs.Grammar.Literal
import SpellText.Proofs.LetterCase.Text

/-!
# Reading with small letters

Reading an expression and making its ASCII letters small can be done in either order :
each reader of the grammar takes the same stretch off a text with small letters, and
its tree is the one that it finds otherwise, with small letters in its names
(`IsCaseless`). Numbers are the same, since only the mark of an exponent has two forms.
Each level of the grammar hands this on to the next, and the readers that call
themselves have it by induction on what bounds them. So a source is an expression exactly
if it is one in small letters (`parse_toLower`).
-/

namespace SpellText

open Text (caseless_of_letters map_toLower_eq_cons_iff)

/-! ## Numbers -/

namespace Decimal

theorem isDigit_toLower (c : Char) : c.toLower.isDigit = c.isDigit :=
  caseless_of_letters (f := Char.isDigit) (by decide) c

theorem isExponentMark_toLower (c : Char) : isExponentMark c.toLower = isExponentMark c :=
  caseless_of_letters (f := isExponentMark) (by decide) c

theorem digitRun_toLower (s : List Char) :
    digitRun (s.map Char.toLower) = ((digitRun s).1, (digitRun s).2.map Char.toLower) := by
  have hdigits : (s.takeWhile Char.isDigit).map Char.toLower = s.takeWhile Char.isDigit := by
    refine (List.map_congr_left fun c hc => ?_).trans (List.map_id _)
    exact toLower_of_isDigit (List.all_eq_true.1 List.all_takeWhile c hc)
  rw [digitRun, digitRun, List.span_eq_takeWhile_dropWhile, List.span_eq_takeWhile_dropWhile,
    Text.takeWhile_toLower isDigit_toLower, Text.dropWhile_toLower isDigit_toLower, hdigits]

theorem fractionRun_toLower (s : List Char) :
    fractionRun (s.map Char.toLower) = ((fractionRun s).1, (fractionRun s).2.map Char.toLower) := by
  cases s with
  | nil => rfl
  | cons c s =>
    by_cases hc : c = '.'
    · rw [hc]
      exact digitRun_toLower s
    · have hl : c.toLower ≠ '.' := fun h => hc ((Text.toLower_eq_iff rfl).1 h)
      simp [fractionRun, hc, hl]

theorem splitSign_toLower (s : List Char) :
    splitSign (s.map Char.toLower) = ((splitSign s).1, (splitSign s).2.map Char.toLower) := by
  cases s with
  | nil => rfl
  | cons c s =>
    by_cases hp : c = '+'
    · rw [hp]
      rfl
    by_cases hm : c = '-'
    · rw [hm]
      rfl
    have hp' : c.toLower ≠ '+' := fun h => hp ((Text.toLower_eq_iff rfl).1 h)
    have hm' : c.toLower ≠ '-' := fun h => hm ((Text.toLower_eq_iff rfl).1 h)
    simp [splitSign, hp, hm, hp', hm']

/-- A decimal has the same digits, and what stands behind it has small letters. -/
theorem unsigned_toLower (s : List Char) :
    unsigned? (s.map Char.toLower) = (unsigned? s).map fun p => (p.1, p.2.map Char.toLower) := by
  unfold unsigned?
  rw [digitRun_toLower]
  generalize digitRun s = w
  obtain ⟨whole, afterWhole⟩ := w
  dsimp only
  rw [fractionRun_toLower]
  generalize fractionRun afterWhole = f
  obtain ⟨fraction, rest⟩ := f
  dsimp only
  split
  · rfl
  cases rest with
  | nil => rfl
  | cons c tail =>
    simp only [List.map_cons, isExponentMark_toLower, splitSign_toLower, digitRun_toLower]
    split
    · generalize splitSign tail = g
      obtain ⟨down, tail⟩ := g
      generalize digitRun tail = x
      obtain ⟨exponent, rest⟩ := x
      cases exponent <;> rfl
    · rfl

end Decimal

namespace Expr

/-! ## Trees -/

mutual

/-- The tree with small letters in its names. -/
def toLower : Expr → Expr
  | number x => number x
  | name s => name s.toLower
  | signed sign e => signed sign e.toLower
  | binary op l r => binary op l.toLower r.toLower
  | call f args => call f.toLower (toLowers args)

/-- The trees with small letters in their names. -/
def toLowers : List Expr → List Expr
  | [] => []
  | e :: rest => e.toLower :: toLowers rest

end

theorem toLowers_eq_map : ∀ es : List Expr, toLowers es = es.map toLower
  | [] => rfl
  | e :: es => congrArg (e.toLower :: ·) (toLowers_eq_map es)

mutual

theorem height_toLower : ∀ e : Expr, e.toLower.height = e.height
  | number _ | name _ => rfl
  | call _ args => congrArg (· + 1) (tallest_toLowers args)
  | signed _ e => congrArg (· + 1) (height_toLower e)
  | binary _ l r => by rw [toLower, height, height, height_toLower l, height_toLower r]

theorem tallest_toLowers : ∀ es : List Expr, tallest (toLowers es) = tallest es
  | [] => rfl
  | e :: es => by rw [toLowers, tallest, tallest, height_toLower e, tallest_toLowers es]

end

theorem isSimple_toLower : ∀ e : Expr, e.toLower.isSimple = e.isSimple
  | number _ | name _ | call _ _ => rfl
  | signed _ e => isSimple_toLower e
  | binary _ l r => by rw [toLower, isSimple, isSimple, isSimple_toLower l, isSimple_toLower r]

theorem nameCount_toLower : ∀ e : Expr, e.toLower.nameCount = e.nameCount
  | number _ | name _ | call _ _ => rfl
  | signed _ e => nameCount_toLower e
  | binary _ l r => by rw [toLower, nameCount, nameCount, nameCount_toLower l, nameCount_toLower r]

theorem isCalculated_toLower (e : Expr) : e.toLower.isCalculated = e.isCalculated := by
  rw [isCalculated, isSimple_toLower, nameCount_toLower, isCalculated]

/-! ## Tokens -/

theorem skipSpace_toLower (s : List Char) :
    skipSpace (s.map Char.toLower) = (skipSpace s).map Char.toLower :=
  Text.dropWhile_toLower (caseless_of_letters (by decide)) s

/-- A sign that is no letter is found alike in lower case. -/
theorem symbol_toLower {c : Char} (hc : c.isAlpha = false) (s : List Char) :
    symbol? c (s.map Char.toLower) = (symbol? c s).map (List.map Char.toLower) := by
  rw [symbol?, skipSpace_toLower, symbol?]
  cases skipSpace s with
  | nil => rfl
  | cons d rest =>
    simp only [List.map_cons, Text.toLower_eq_iff hc, skipSpace_toLower]
    split <;> rfl

/-- The reader finds the same token in a text with small letters, and behind it the
same rest with small letters. -/
def FindsCaseless {α : Type} (token? : List Char → Option (α × List Char)) : Prop :=
  ∀ s : List Char,
    token? (s.map Char.toLower) = (token? s).map fun p => (p.1, p.2.map Char.toLower)

theorem findsCaseless_comparisonOp : FindsCaseless comparisonOp? := by
  intro s
  unfold comparisonOp?
  rw [skipSpace_toLower]
  generalize skipSpace s = r
  split
  case h_1 h | h_2 h | h_3 h | h_4 h =>
    obtain ⟨t, hr, h⟩ := (map_toLower_eq_cons_iff rfl).1 h
    obtain ⟨t, rfl, rfl⟩ := (map_toLower_eq_cons_iff rfl).1 h
    simp [hr, skipSpace_toLower]
  case h_5 hne h | h_6 hne h =>
    obtain ⟨t, rfl, rfl⟩ := (map_toLower_eq_cons_iff rfl).1 h
    have hne : ∀ u, t = '=' :: u → False := by
      rintro u rfl
      exact hne _ rfl
    simp [skipSpace_toLower]
  case h_7 h₁ h₂ h₃ h₄ h₅ h₆ =>
    split
    · exact (h₁ _ rfl).elim
    · exact (h₂ _ rfl).elim
    · exact (h₃ _ rfl).elim
    · exact (h₄ _ rfl).elim
    · exact (h₅ _ rfl).elim
    · exact (h₆ _ rfl).elim
    · rfl

theorem findsCaseless_additiveOp : FindsCaseless additiveOp? := by
  intro s
  unfold additiveOp?
  rw [skipSpace_toLower]
  generalize skipSpace s = r
  split
  case h_1 h | h_2 h =>
    obtain ⟨t, rfl, rfl⟩ := (map_toLower_eq_cons_iff rfl).1 h
    simp [skipSpace_toLower]
  case h_3 h₁ h₂ =>
    split
    · exact (h₁ _ rfl).elim
    · exact (h₂ _ rfl).elim
    · rfl

theorem findsCaseless_termOp : FindsCaseless termOp? := by
  intro s
  unfold termOp?
  rw [skipSpace_toLower]
  generalize skipSpace s = r
  split
  case h_1 h =>
    obtain ⟨t, hr, h⟩ := (map_toLower_eq_cons_iff rfl).1 h
    obtain ⟨t, rfl, rfl⟩ := (map_toLower_eq_cons_iff rfl).1 h
    rw [hr]
    rfl
  case h_2 hne h =>
    obtain ⟨t, rfl, rfl⟩ := (map_toLower_eq_cons_iff rfl).1 h
    have hne : ∀ u, t = '*' :: u → False := by
      rintro u rfl
      exact hne _ rfl
    simp [skipSpace_toLower]
  case h_3 h | h_4 h =>
    obtain ⟨t, rfl, rfl⟩ := (map_toLower_eq_cons_iff rfl).1 h
    simp [skipSpace_toLower]
  case h_5 h₁ h₂ h₃ h₄ =>
    split
    · exact (h₁ _ rfl).elim
    · exact (h₂ _ rfl).elim
    · exact (h₃ _ rfl).elim
    · exact (h₄ _ rfl).elim
    · rfl

theorem findsCaseless_sign : FindsCaseless sign? := by
  intro s
  unfold sign?
  rw [skipSpace_toLower]
  generalize skipSpace s = r
  split
  case h_1 h | h_2 h =>
    obtain ⟨t, rfl, rfl⟩ := (map_toLower_eq_cons_iff rfl).1 h
    simp [skipSpace_toLower]
  case h_3 h₁ h₂ =>
    split
    · exact (h₁ _ rfl).elim
    · exact (h₂ _ rfl).elim
    · rfl

theorem powerSign_toLower (s : List Char) :
    powerSign? (s.map Char.toLower) = (powerSign? s).map (List.map Char.toLower) := by
  unfold powerSign?
  rw [skipSpace_toLower]
  generalize skipSpace s = r
  split
  case h_1 h =>
    obtain ⟨t, hr, h⟩ := (map_toLower_eq_cons_iff rfl).1 h
    obtain ⟨t, rfl, rfl⟩ := (map_toLower_eq_cons_iff rfl).1 h
    simp [hr, skipSpace_toLower]
  case h_2 h₁ =>
    split
    · exact (h₁ _ rfl).elim
    · rfl

/-- A number is read alike in lower case, also its exponent. -/
theorem number_toLower (s : List Char) :
    number? (s.map Char.toLower)
      = (number? s).map fun p => (p.1.toLower, p.2.map Char.toLower) := by
  rw [number?, skipSpace_toLower, Decimal.unsigned_toLower, number?]
  cases Decimal.unsigned? (skipSpace s) with
  | none => rfl
  | some p => simp [toLower, skipSpace_toLower]

theorem isNameStart_toLower (c : Char) : isNameStart c.toLower = isNameStart c :=
  caseless_of_letters (f := isNameStart) (by decide) c

theorem isNameRest_toLower (c : Char) : isNameRest c.toLower = isNameRest c :=
  caseless_of_letters (f := isNameRest) (by decide) c

/-- A name is read as itself in lower case. -/
theorem name_toLower (s : List Char) :
    name? (s.map Char.toLower) = (name? s).map fun p => (p.1.toLower, p.2.map Char.toLower) := by
  rw [name?, skipSpace_toLower, name?]
  cases skipSpace s with
  | nil => rfl
  | cons c rest =>
    simp only [List.map_cons, isNameStart_toLower, Text.takeWhile_toLower isNameRest_toLower,
      Text.dropWhile_toLower isNameRest_toLower, skipSpace_toLower]
    split
    · rw [Option.map_some, ← Text.ofList_toLower, List.map_cons]
    · rfl

/-! ## Levels -/

/-- What is found in a text with small letters. -/
def Outcome.toLower {α : Type} (f : α → α) : Outcome α → Outcome α
  | done a rest => done (f a) (rest.map Char.toLower)
  | unexpected rest => unexpected (rest.map Char.toLower)
  | tooDeep rest => tooDeep (rest.map Char.toLower)

/-- Two steps that read alike in lower case do so one after the other. -/
theorem Outcome.andThen_toLower {α β : Type} {f : α → α} {g : β → β} {o : Outcome α}
    {k k' : α → List Char → Outcome β}
    (h : ∀ a rest, k' (f a) (rest.map Char.toLower) = (k a rest).toLower g) :
    (o.toLower f).andThen k' = (o.andThen k).toLower g := by
  cases o with
  | done a rest => exact h a rest
  | unexpected rest => rfl
  | tooDeep rest => rfl

/-- A text with small letters is read as the same tree, with small letters in its names. -/
def IsCaseless (read : Reader) : Prop :=
  ∀ s : List Char, read (s.map Char.toLower) = (read s).toLower toLower

variable {limit : Nat} {operand : Reader}

theorem grown_toLower (place : List Char) (e : Expr) (rest : List Char) :
    grown limit (place.map Char.toLower) e.toLower (rest.map Char.toLower)
      = (grown limit place e rest).toLower toLower := by
  rw [grown, height_toLower, grown]
  split <;> rfl

/-- A chain of operands goes on alike in lower case. -/
theorem chainRest_toLower {op? : List Char → Option (Op × List Char)} (hop : FindsCaseless op?)
    (ho : IsCaseless operand) (rounds : Nat) (left : Expr) (s : List Char) :
    chainRest limit op? operand rounds left.toLower (s.map Char.toLower)
      = (chainRest limit op? operand rounds left s).toLower toLower := by
  induction rounds generalizing left s with
  | zero => rfl
  | succ rounds ih =>
    rw [chainRest, chainRest, hop s]
    cases op? s with
    | none => rfl
    | some p =>
      obtain ⟨op, next⟩ := p
      dsimp only [Option.map_some]
      rw [ho next]
      refine Outcome.andThen_toLower fun right rest => ?_
      rw [← Outcome.andThen_toLower ih, ← grown_toLower]
      rfl

/-- A chain is read alike in lower case if its operands are. -/
theorem isCaseless_chain {op? : List Char → Option (Op × List Char)} (hop : FindsCaseless op?)
    (ho : IsCaseless operand) : IsCaseless (chain limit op? operand) := by
  intro s
  rw [chain, ho s]
  exact Outcome.andThen_toLower fun left rest => chainRest_toLower hop ho limit left rest

/-- A comparison is read alike in lower case if its operands are. -/
theorem isCaseless_comparison (ho : IsCaseless operand) :
    IsCaseless (comparison limit operand) :=
  isCaseless_chain findsCaseless_comparisonOp
    (isCaseless_chain findsCaseless_additiveOp (isCaseless_chain findsCaseless_termOp ho))

/-- The arguments go on alike in lower case. -/
theorem argumentsRest_toLower {argument : Reader} (ha : IsCaseless argument)
    (rounds : List Char) (es : List Expr) (s : List Char) :
    argumentsRest argument (rounds.map Char.toLower) (es.map toLower) (s.map Char.toLower)
      = (argumentsRest argument rounds es s).toLower (List.map toLower) := by
  induction rounds generalizing es s with
  | nil => rw [List.map_nil, argumentsRest, argumentsRest, Outcome.toLower, List.map_reverse]
  | cons c rounds ih =>
    rw [List.map_cons, argumentsRest, symbol_toLower rfl, argumentsRest]
    cases symbol? ',' s with
    | none => simp [Outcome.toLower, List.map_reverse]
    | some next =>
      dsimp only [Option.map_some]
      rw [ha next]
      cases argument next with
      | done e rest => exact ih (e :: es) rest
      | unexpected _ => simp [Outcome.toLower, List.map_reverse]
      | tooDeep place => rfl

/-- Arguments are read alike in lower case. -/
theorem arguments_toLower {argument : Reader} (ha : IsCaseless argument) (s : List Char) :
    arguments argument (s.map Char.toLower)
      = (arguments argument s).toLower (List.map toLower) := by
  rw [arguments, ha s, arguments]
  cases argument s with
  | done e rest => exact argumentsRest_toLower ha rest [e] rest
  | unexpected _ => rfl
  | tooDeep _ => rfl

/-- A name or a call is read alike in lower case if its arguments are. -/
theorem isCaseless_nameOrCall (ho : IsCaseless operand) :
    IsCaseless (nameOrCall limit operand) := by
  intro s
  rw [nameOrCall, name_toLower, nameOrCall]
  cases name? s with
  | none => simp [Outcome.toLower, skipSpace_toLower]
  | some p =>
    obtain ⟨f, rest⟩ := p
    dsimp only [Option.map_some]
    rw [symbol_toLower rfl]
    cases symbol? '(' rest with
    | none => rfl
    | some inside =>
      dsimp only [Option.map_some]
      rw [arguments_toLower (isCaseless_comparison ho)]
      refine Outcome.andThen_toLower fun args afterArgs => ?_
      rw [symbol_toLower rfl]
      cases symbol? ')' afterArgs with
      | none => rfl
      | some behind =>
        dsimp only [Option.map_some]
        rw [← grown_toLower, toLower, toLowers_eq_map]

/-- An operand without signs is read alike in lower case. -/
theorem isCaseless_primary (ho : IsCaseless operand) : IsCaseless (primary limit operand) := by
  intro s
  rw [primary, symbol_toLower rfl, primary]
  cases symbol? '(' s with
  | some inside =>
    dsimp only [Option.map_some]
    rw [isCaseless_comparison ho inside]
    refine Outcome.andThen_toLower fun e rest => ?_
    rw [symbol_toLower rfl]
    cases symbol? ')' rest with
    | none => simp [Outcome.toLower, skipSpace_toLower]
    | some behind => rfl
  | none =>
    dsimp only [Option.map_none]
    rw [number_toLower]
    cases number? s with
    | some p => rfl
    | none => exact isCaseless_nameOrCall ho s

/-- A power is read alike in lower case. -/
theorem isCaseless_power (ho : IsCaseless operand) : IsCaseless (power limit operand) := by
  intro s
  rw [power, isCaseless_primary ho s, power]
  refine Outcome.andThen_toLower fun base rest => ?_
  rw [powerSign_toLower]
  cases powerSign? rest with
  | none => rfl
  | some next =>
    dsimp only [Option.map_some]
    rw [ho next]
    exact Outcome.andThen_toLower fun exponent behind =>
      grown_toLower rest (.binary .pow base exponent) behind

/-- An operand with its signs is read alike in lower case, at any depth. -/
theorem isCaseless_unary (depth : Nat) : IsCaseless (unary limit depth) := by
  induction depth with
  | zero => exact fun s => rfl
  | succ depth ih =>
    intro s
    cases h : sign? s with
    | none =>
      have h' : sign? (s.map Char.toLower) = none := by rw [findsCaseless_sign s, h]; rfl
      rw [unary_of_no_sign h, unary_of_no_sign h']
      exact isCaseless_power ih s
    | some p =>
      obtain ⟨sign, next⟩ := p
      have h' : sign? (s.map Char.toLower) = some (sign, next.map Char.toLower) := by
        rw [findsCaseless_sign s, h]
        rfl
      rw [unary_of_sign h, unary_of_sign h', ih next]
      exact Outcome.andThen_toLower fun e rest => grown_toLower s (.signed sign e) rest

/-! ## Texts -/

/-- A source is an expression if it is one in small letters, and then its names are
the same up to the case of letters. -/
theorem parse_toLower (source : String) :
    (parse source.toLower).toOption = (parse source).toOption.map toLower := by
  rw [parse, Text.toList_toLower, parse]
  generalize source.toList = s
  rw [parseChars, Text.trim_toLower, List.isEmpty_map, parseChars]
  split
  · rfl
  · dsimp only
    rw [isCaseless_comparison (isCaseless_unary depthLimit) s]
    cases comparison depthLimit (unary depthLimit depthLimit) s with
    | done e rest => cases rest <;> rfl
    | unexpected _ => rfl
    | tooDeep _ => rfl

end Expr

end SpellText
