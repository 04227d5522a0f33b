import SpellText.Proofs.Grammar.Basic

/-!
# Reading tokens

Every reader of tokens takes a token with the blanks around it off the text
(the lemmas that end in `_sound`), and finds the token where it stands, unless
what follows could belong to it (those that end in `_complete`). Blanks that are
left in front of the text do not matter : the readers only look at what is behind
them.
-/

namespace SpellText.Expr

/-! ## Blanks -/

/-- What holds of the four blanks holds of every one. -/
theorem of_isSpace {f : Char → Bool} (hf : [' ', '\t', '\r', '\n'].all f = true) {c : Char}
    (h : isSpace c = true) : f c = true := by
  have hc : c ∈ [' ', '\t', '\r', '\n'] := by
    simp only [isSpace, Bool.or_eq_true, beq_iff_eq] at h
    simpa [or_assoc] using h
  exact List.all_eq_true.1 hf c hc

theorem skipSpace_append {a : List Char} (h : Blanks a) (s : List Char) :
    skipSpace (a ++ s) = skipSpace s :=
  List.dropWhile_append_of_pos h

theorem skipSpace_of_head {c : Char} (h : isSpace c = false) (s : List Char) :
    skipSpace (c :: s) = c :: s := by
  rw [skipSpace, List.dropWhile_cons_of_neg]
  rw [h]
  exact Bool.false_ne_true

theorem exists_blanks (s : List Char) : ∃ a, Blanks a ∧ s = a ++ skipSpace s :=
  ⟨s.takeWhile isSpace, List.all_eq_true.1 List.all_takeWhile,
    List.takeWhile_append_dropWhile.symm⟩

theorem skipSpace_skipSpace (s : List Char) : skipSpace (skipSpace s) = skipSpace s := by
  obtain ⟨a, ha, hs⟩ := exists_blanks s
  conv_rhs => rw [hs, skipSpace_append ha]

/-- A token behind the blanks is taken off with the blanks around it. -/
theorem exists_spaced {s t tail : List Char} (h : skipSpace s = t ++ tail) :
    ∃ o, Spaced t o ∧ s = o ++ skipSpace tail := by
  obtain ⟨a, ha, hs⟩ := exists_blanks s
  obtain ⟨b, hb, ht⟩ := exists_blanks tail
  refine ⟨a ++ (t ++ b), ⟨a, b, ha, hb, rfl⟩, ?_⟩
  rw [hs, h, List.append_assoc, List.append_assoc, ← ht]

/-- Behind the blanks in front of it a token is found. -/
theorem Spaced.skipSpace {c : Char} {t o : List Char} (h : Spaced (c :: t) o)
    (hc : isSpace c = false) :
    ∃ b, Blanks b ∧ ∀ r, Expr.skipSpace (o ++ r) = c :: (t ++ (b ++ r)) := by
  obtain ⟨a, b, ha, hb, rfl⟩ := h
  refine ⟨b, hb, fun r => ?_⟩
  rw [List.append_assoc, skipSpace_append ha, List.append_assoc, List.cons_append,
    skipSpace_of_head hc]

/-! ## What is taken off the text -/

/-- A sign that was read stands there, with blanks around it. -/
theorem symbol_sound {c : Char} {s rest : List Char} (h : symbol? c s = some rest) :
    ∃ o, Spaced [c] o ∧ s = o ++ rest := by
  unfold symbol? at h
  split at h
  · next hs =>
    split at h
    · next hc =>
      cases h
      exact exists_spaced (hc ▸ hs)
    · cases h
  · cases h

theorem sign_sound {s rest : List Char} {sign : Sign} (h : sign? s = some (sign, rest)) :
    ∃ o, Spaced [sign.char] o ∧ s = o ++ rest := by
  unfold sign? at h
  split at h
  · next hs =>
    cases h
    exact exists_spaced hs
  · next hs =>
    cases h
    exact exists_spaced hs
  · cases h

theorem powerSign_sound {s rest : List Char} (h : powerSign? s = some rest) :
    ∃ o, Spaced Op.pow.symbol.toList o ∧ s = o ++ rest := by
  unfold powerSign? at h
  split at h
  · next hs =>
    cases h
    exact exists_spaced hs
  · cases h

/-- The reader takes operators of the level off the text. -/
def TakesOp (l : Level) (op? : List Char → Option (Op × List Char)) : Prop :=
  ∀ {s : List Char} {op : Op} {rest : List Char}, op? s = some (op, rest) →
    op.level = l ∧ ∃ o, Spaced op.symbol.toList o ∧ s = o ++ rest

theorem comparisonOp_sound : TakesOp .comparison comparisonOp? := by
  intro s op rest h
  unfold comparisonOp? at h
  split at h
  case h_7 => cases h
  all_goals
    next hs =>
    cases h
    exact ⟨rfl, exists_spaced hs⟩

theorem additiveOp_sound : TakesOp .additive additiveOp? := by
  intro s op rest h
  unfold additiveOp? at h
  split at h
  case h_3 => cases h
  all_goals
    next hs =>
    cases h
    exact ⟨rfl, exists_spaced hs⟩

theorem termOp_sound : TakesOp .term termOp? := by
  intro s op rest h
  unfold termOp? at h
  split at h
  case h_1 | h_5 => cases h
  all_goals
    next hs =>
    cases h
    exact ⟨rfl, exists_spaced hs⟩

/-- A number that was read is that of a numeral that stands there. -/
theorem number_sound {s rest : List Char} {e : Expr} (h : number? s = some (e, rest)) :
    ∃ x t o, e = .number x ∧ IsLiteral t ∧ Decimal.float? t = some x ∧ Spaced t o ∧
      s = o ++ rest := by
  obtain ⟨⟨p, tail⟩, hp, he⟩ := Option.map_eq_some_iff.1 h
  obtain ⟨rfl, rfl⟩ := Prod.mk.inj he
  obtain ⟨t, ht, hs⟩ := Decimal.spells_of_unsigned hp
  obtain ⟨o, ho, hs⟩ := exists_spaced hs
  exact ⟨p.value, t, o, rfl, ⟨p, ht⟩, Decimal.float_of_spells ht, ho, hs⟩

/-- A name that was read stands there. -/
theorem name_sound {s rest : List Char} {f : String} (h : name? s = some (f, rest)) :
    ∃ t o, f = String.ofList t ∧ IsName t ∧ Spaced t o ∧ s = o ++ rest := by
  unfold name? at h
  split at h
  · next c tail hs =>
    split at h
    · next hc =>
      obtain ⟨rfl, rfl⟩ := Prod.mk.inj (Option.some.inj h)
      have ht : skipSpace s = (c :: tail.takeWhile isNameRest) ++ tail.dropWhile isNameRest := by
        rw [hs, List.cons_append, List.takeWhile_append_dropWhile]
      obtain ⟨o, ho, hs'⟩ := exists_spaced ht
      exact ⟨_, o, rfl, ⟨c, _, rfl, hc, List.all_eq_true.1 List.all_takeWhile⟩, ho, hs'⟩
    · cases h
  · cases h

/-! ## What begins and what ends an operand -/

/-- Behind its blanks the text begins with a character that `f` admits. -/
def Begins (f : Char → Bool) (s : List Char) : Prop := ∃ c s', skipSpace s = c :: s' ∧ f c = true

/-- An operand without sign and exponent begins with the character. -/
def startsPrimary (c : Char) : Bool := c == '(' || c == '.' || c.isDigit || isNameStart c

/-- An operand begins with the character. -/
def startsOperand (c : Char) : Bool := c == '+' || c == '-' || startsPrimary c

/-- What may stand behind a phrase of the level, besides nothing. -/
def Level.followers : Level → List Char
  | comparison => [')', ',']
  | additive => [')', ',', '<', '>', '=', '!']
  | term => [')', ',', '<', '>', '=', '!', '+', '-']
  | unary | power | primary => [')', ',', '<', '>', '=', '!', '+', '-', '*', '/', '%']

/-- Nothing that belongs to a phrase of the level stands at the start of the text.
Two stars are no product sign. -/
def Ends (l : Level) (r : List Char) : Prop :=
  ∀ c t, skipSpace r = c :: t →
    c ∈ l.followers ∧ (c = '*' → l ≠ .primary → ∀ d ∈ t.head?, d ≠ '*')

theorem Begins.append {f : Char → Bool} {s : List Char} (h : Begins f s) (r : List Char) :
    Begins f (s ++ r) := by
  obtain ⟨c, s', hs, hc⟩ := h
  refine ⟨c, s' ++ r, ?_, hc⟩
  rw [skipSpace, List.dropWhile_append, ← skipSpace, hs]
  rfl

theorem Begins.of_spaced {f : Char → Bool} {c : Char} {t o : List Char} (h : Spaced (c :: t) o)
    (hc : isSpace c = false) (hf : f c = true) : Begins f o := by
  obtain ⟨b, -, hb⟩ := h.skipSpace hc
  refine ⟨c, t ++ b, ?_, hf⟩
  simpa using hb []

theorem Begins.blanks {f : Char → Bool} {b r : List Char} (hb : Blanks b) (h : Begins f r) :
    Begins f (b ++ r) := by
  rwa [Begins, skipSpace_append hb]

/-- Neither the second character of an operator nor another star begins an operand. -/
theorem Begins.head_ne {s : List Char} (h : Begins startsOperand s) {d : Char}
    (hd : d = '=' ∨ d = '*') (t : List Char) : s ≠ d :: t := by
  rintro rfl
  obtain ⟨c, s', hs, hc⟩ := h
  have hsp : isSpace d = false := by rcases hd with rfl | rfl <;> rfl
  rw [skipSpace_of_head hsp] at hs
  cases hs
  rcases hd with rfl | rfl <;> exact absurd hc (by decide)

/-- How a text ends a level does not depend on blanks in front. -/
theorem Ends.congr {l : Level} {r r' : List Char} (h : skipSpace r = skipSpace r') :
    Ends l r ↔ Ends l r' := by
  rw [Ends, Ends, h]

theorem ends_nil (l : Level) : Ends l [] := nofun

/-- What ends a chain ends its operands. -/
theorem Ends.operand {l l' : Level} {r : List Char} (h : Ends l r) (hl : l.operand? = some l') :
    Ends l' r := by
  intro c t hs
  obtain ⟨hc, -⟩ := h c t hs
  have hsub : (l.followers.all fun d => d ∈ l'.followers) = true := by
    cases l <;> cases hl <;> decide
  have hstar : '*' ∉ l.followers := by cases l <;> cases hl <;> decide
  exact ⟨of_decide_eq_true (List.all_eq_true.1 hsub c hc), fun hcs => absurd (hcs ▸ hc) hstar⟩

theorem ends_power_iff {r : List Char} : Ends .power r ↔ Ends .unary r := by
  constructor
  all_goals
    intro h c t hs
    obtain ⟨hc, hstar⟩ := h c t hs
    exact ⟨hc, fun hcs _ => hstar hcs nofun⟩

theorem Ends.primary {r : List Char} (h : Ends .power r) : Ends .primary r := by
  intro c t hs
  exact ⟨(h c t hs).1, fun _ h => absurd rfl h⟩

/-- A closing parenthesis or a comma ends every phrase. -/
theorem ends_of_spaced {c : Char} {o : List Char} (h : Spaced [c] o) (hc : c = ')' ∨ c = ',')
    (l : Level) (r : List Char) : Ends l (o ++ r) := by
  have hsp : isSpace c = false := by rcases hc with rfl | rfl <;> rfl
  obtain ⟨b, -, hb⟩ := h.skipSpace hsp
  intro d t hs
  rw [hb r] at hs
  obtain ⟨rfl, -⟩ := List.cons.inj hs
  refine ⟨?_, ?_⟩
  · rcases hc with rfl | rfl <;> cases l <;> decide
  · rintro rfl
    rcases hc with hc | hc <;> cases hc

theorem isNameRest_of_isSpace {c : Char} (h : isSpace c = true) : isNameRest c = false := by
  have := of_isSpace (f := fun d => !isNameRest d) rfl h
  simpa using this

/-- What ends a level ends a numeral and a name. -/
theorem Ends.halts {l : Level} {r : List Char} (h : Ends l r) : Decimal.Halts r := by
  intro c hc
  cases hs : isSpace c with
  | true => exact isNameRest_of_isSpace hs
  | false =>
    cases r with
    | nil => cases hc
    | cons d t =>
      cases hc
      have hm := (h c t (skipSpace_of_head hs t)).1
      have hall : (l.followers.all fun d => !isNameRest d) = true := by cases l <;> decide
      simpa using List.all_eq_true.1 hall c hm

/-! ## What is found in the text -/

/-- A sign that stands there is read. -/
theorem symbol_complete {c : Char} {o r s : List Char} (h : Spaced [c] o) (hc : isSpace c = false)
    (hs : skipSpace s = skipSpace (o ++ r)) : symbol? c s = some (skipSpace r) := by
  obtain ⟨b, hb, ho⟩ := h.skipSpace hc
  rw [symbol?, hs, ho r]
  simp [skipSpace_append hb]

theorem symbol_none {c : Char} {s : List Char} (h : ∀ t, skipSpace s ≠ c :: t) :
    symbol? c s = none := by
  unfold symbol?
  split
  · next d t hs =>
    split
    · next hd => exact absurd (hd ▸ hs) (h t)
    · rfl
  · rfl

/-- In front of another token the symbol is not found. -/
theorem symbol_none_of_spaced {c d : Char} {t p r s : List Char} (h : Spaced (d :: t) p)
    (hd : isSpace d = false) (hne : d ≠ c) (hs : skipSpace s = skipSpace (p ++ r)) :
    symbol? c s = none := by
  obtain ⟨b, -, hb⟩ := h.skipSpace hd
  refine symbol_none fun u hu => ?_
  rw [hs, hb r] at hu
  exact hne (List.cons.inj hu).1

theorem sign_complete {sign : Sign} {o r s : List Char} (h : Spaced [sign.char] o)
    (hs : skipSpace s = skipSpace (o ++ r)) : sign? s = some (sign, skipSpace r) := by
  obtain ⟨b, hb, ho⟩ := h.skipSpace (by cases sign <;> rfl)
  rw [sign?, hs, ho r]
  cases sign <;> simp [Sign.char, skipSpace_append hb]

theorem sign_none {s : List Char} (h : Begins startsPrimary s) : sign? s = none := by
  obtain ⟨c, s', hs, hc⟩ := h
  unfold sign?
  split
  · next hs' =>
    cases hs.symm.trans hs'
    exact absurd hc (by decide)
  · next hs' =>
    cases hs.symm.trans hs'
    exact absurd hc (by decide)
  · rfl

theorem powerSign_complete {o r s : List Char} (h : Spaced Op.pow.symbol.toList o)
    (hs : skipSpace s = skipSpace (o ++ r)) : powerSign? s = some (skipSpace r) := by
  obtain ⟨b, hb, ho⟩ := Spaced.skipSpace (c := '*') (t := ['*']) h rfl
  rw [powerSign?, hs, ho r]
  simp [skipSpace_append hb]

theorem powerSign_none {r : List Char} (h : Ends .power r) : powerSign? r = none := by
  unfold powerSign?
  split
  · next t hs => exact absurd rfl ((h _ _ hs).2 rfl nofun '*' rfl)
  · rfl

/-- The reader finds the operators of the level in front of an operand, and none at
the end of a phrase of the level. -/
structure FindsOp (l : Level) (op? : List Char → Option (Op × List Char)) : Prop where
  found : ∀ {op : Op} {o r s : List Char}, op.level = l → Spaced op.symbol.toList o →
    Begins startsOperand r → skipSpace s = skipSpace (o ++ r) → op? s = some (op, skipSpace r)
  none : ∀ {r s : List Char}, Ends l r → skipSpace s = skipSpace r → op? s = .none

/-- Behind the blanks stands the operator, and behind it what stood there. -/
theorem exists_operand {c : Char} {t o r s : List Char} (h : Spaced (c :: t) o)
    (hc : isSpace c = false) (hr : Begins startsOperand r)
    (hs : skipSpace s = skipSpace (o ++ r)) :
    ∃ u, skipSpace s = c :: (t ++ u) ∧ Begins startsOperand u ∧ skipSpace u = skipSpace r := by
  obtain ⟨b, hb, ho⟩ := h.skipSpace hc
  exact ⟨b ++ r, by rw [hs, ho r], hr.blanks hb, skipSpace_append hb r⟩

/-- An operator of a chain begins with a character that may follow its operands, and
only the product sign with a star. -/
theorem Op.exists_head (op : Op) {l' : Level} (h : op.level.operand? = some l') :
    ∃ c t, op.symbol.toList = c :: t ∧ isSpace c = false ∧ c ∈ l'.followers ∧
      (c = '*' → t = []) := by
  cases op with
  | lt => cases h; exact ⟨'<', [], rfl, rfl, by decide, fun _ => rfl⟩
  | gt => cases h; exact ⟨'>', [], rfl, rfl, by decide, fun _ => rfl⟩
  | le => cases h; exact ⟨'<', ['='], rfl, rfl, by decide, by decide⟩
  | ge => cases h; exact ⟨'>', ['='], rfl, rfl, by decide, by decide⟩
  | eq => cases h; exact ⟨'=', ['='], rfl, rfl, by decide, by decide⟩
  | ne => cases h; exact ⟨'!', ['='], rfl, rfl, by decide, by decide⟩
  | add => cases h; exact ⟨'+', [], rfl, rfl, by decide, fun _ => rfl⟩
  | sub => cases h; exact ⟨'-', [], rfl, rfl, by decide, fun _ => rfl⟩
  | mul => cases h; exact ⟨'*', [], rfl, rfl, by decide, fun _ => rfl⟩
  | div => cases h; exact ⟨'/', [], rfl, rfl, by decide, fun _ => rfl⟩
  | rem => cases h; exact ⟨'%', [], rfl, rfl, by decide, fun _ => rfl⟩
  | pow => cases h

/-- The operators of a chain end its operands. -/
theorem ends_of_op {op : Op} {l' : Level} {o r : List Char} (hl : op.level.operand? = some l')
    (ho : Spaced op.symbol.toList o) (hr : Begins startsOperand r) : Ends l' (o ++ r) := by
  obtain ⟨c, t, hop, hc, hmem, hstar⟩ := op.exists_head hl
  rw [hop] at ho
  obtain ⟨u, hu, hb, -⟩ := exists_operand ho hc hr rfl
  intro d t' hd
  rw [hu] at hd
  obtain ⟨rfl, rfl⟩ := List.cons.inj hd
  refine ⟨hmem, fun hcs _ d hd hds => ?_⟩
  rw [hstar hcs] at hd
  cases u with
  | nil => cases hd
  | cons e u =>
    cases hd
    exact hb.head_ne (.inr hds) u rfl

/-- The two stars of a power end its base. -/
theorem ends_of_powerSign {o : List Char} (h : Spaced Op.pow.symbol.toList o) (r : List Char) :
    Ends .primary (o ++ r) := by
  obtain ⟨b, -, ho⟩ := Spaced.skipSpace (c := '*') (t := ['*']) h rfl
  intro c t hs
  rw [ho r] at hs
  cases hs
  exact ⟨by decide, fun _ h => absurd rfl h⟩

theorem findsOp_comparison : FindsOp .comparison comparisonOp? where
  found {op o r s} hl h hr hs := by
    unfold comparisonOp?
    cases op with
    | le =>
      obtain ⟨u, hu, -, hur⟩ := exists_operand (c := '<') (t := ['=']) h rfl hr hs
      rw [hu, ← hur]
      rfl
    | ge =>
      obtain ⟨u, hu, -, hur⟩ := exists_operand (c := '>') (t := ['=']) h rfl hr hs
      rw [hu, ← hur]
      rfl
    | eq =>
      obtain ⟨u, hu, -, hur⟩ := exists_operand (c := '=') (t := ['=']) h rfl hr hs
      rw [hu, ← hur]
      rfl
    | ne =>
      obtain ⟨u, hu, -, hur⟩ := exists_operand (c := '!') (t := ['=']) h rfl hr hs
      rw [hu, ← hur]
      rfl
    | lt =>
      obtain ⟨u, hu, hb, hur⟩ := exists_operand (c := '<') (t := []) h rfl hr hs
      rw [hu, ← hur, List.nil_append]
      simp [hb.head_ne (.inl rfl)]
    | gt =>
      obtain ⟨u, hu, hb, hur⟩ := exists_operand (c := '>') (t := []) h rfl hr hs
      rw [hu, ← hur, List.nil_append]
      simp [hb.head_ne (.inl rfl)]
    | _ => cases hl
  none {r s} h hs := by
    unfold comparisonOp?
    rw [hs]
    split
    case h_7 => rfl
    all_goals
      next hr => exact absurd (h _ _ hr).1 (by decide)

theorem findsOp_additive : FindsOp .additive additiveOp? where
  found {op o r s} hl h hr hs := by
    unfold additiveOp?
    cases op with
    | add =>
      obtain ⟨u, hu, -, hur⟩ := exists_operand (c := '+') (t := []) h rfl hr hs
      rw [hu, ← hur]
      rfl
    | sub =>
      obtain ⟨u, hu, -, hur⟩ := exists_operand (c := '-') (t := []) h rfl hr hs
      rw [hu, ← hur]
      rfl
    | _ => cases hl
  none {r s} h hs := by
    unfold additiveOp?
    rw [hs]
    split
    case h_3 => rfl
    all_goals
      next hr => exact absurd (h _ _ hr).1 (by decide)

theorem findsOp_term : FindsOp .term termOp? where
  found {op o r s} hl h hr hs := by
    unfold termOp?
    cases op with
    | mul =>
      obtain ⟨u, hu, hb, hur⟩ := exists_operand (c := '*') (t := []) h rfl hr hs
      rw [hu, ← hur, List.nil_append]
      simp [hb.head_ne (.inr rfl)]
    | div =>
      obtain ⟨u, hu, -, hur⟩ := exists_operand (c := '/') (t := []) h rfl hr hs
      rw [hu, ← hur]
      rfl
    | rem =>
      obtain ⟨u, hu, -, hur⟩ := exists_operand (c := '%') (t := []) h rfl hr hs
      rw [hu, ← hur]
      rfl
    | _ => cases hl
  none {r s} h hs := by
    unfold termOp?
    rw [hs]
    split
    case h_1 | h_5 => rfl
    all_goals
      next hr => exact absurd (h _ _ hr).1 (by decide)

/-! ## Numbers and names -/

theorem isSpace_of_startsPrimary {c : Char} (h : startsPrimary c = true) : isSpace c = false := by
  cases hs : isSpace c with
  | false => rfl
  | true =>
    have := of_isSpace (f := fun d => !startsPrimary d) rfl hs
    simp [h] at this

theorem halts_append {b r : List Char} (hb : Blanks b) (h : Decimal.Halts r) :
    Decimal.Halts (b ++ r) := by
  cases b with
  | nil => exact h
  | cons c b =>
    intro d hd
    cases hd
    exact isNameRest_of_isSpace (hb c List.mem_cons_self)

theorem halts_of_spaced {c : Char} {o : List Char} (h : Spaced [c] o) (hc : isNameRest c = false)
    (r : List Char) : Decimal.Halts (o ++ r) := by
  obtain ⟨a, b, ha, -, rfl⟩ := h
  rw [List.append_assoc]
  refine halts_append ha fun d hd => ?_
  cases hd
  exact hc

/-- A numeral begins as an operand does, and not with a parenthesis. -/
theorem startsPrimary_of_isLiteral {t : List Char} (h : IsLiteral t) :
    ∃ c t', t = c :: t' ∧ startsPrimary c = true ∧ c ≠ '(' := by
  obtain ⟨p, hp⟩ := h
  obtain ⟨c, t', rfl, hc⟩ := Decimal.head_of_spells hp
  refine ⟨c, t', rfl, ?_, ?_⟩
  · rcases hc with hc | rfl
    · simp [startsPrimary, hc]
    · rfl
  · rintro rfl
    exact absurd hc (by decide)

theorem startsPrimary_of_isName {t : List Char} (h : IsName t) :
    ∃ c t', t = c :: t' ∧ startsPrimary c = true ∧ c ≠ '(' := by
  obtain ⟨c, t', rfl, hc, -⟩ := h
  refine ⟨c, t', rfl, by simp [startsPrimary, hc], ?_⟩
  rintro rfl
  exact absurd hc (by decide)

/-- A numeral that stands there is read as its number. -/
theorem number_complete {t o r s : List Char} {x : Float} (ht : IsLiteral t)
    (hx : Decimal.float? t = some x) (h : Spaced t o) (hr : Decimal.Halts r)
    (hs : skipSpace s = skipSpace (o ++ r)) : number? s = some (.number x, skipSpace r) := by
  obtain ⟨c, t', rfl, hc, -⟩ := startsPrimary_of_isLiteral ht
  obtain ⟨b, hb, ho⟩ := h.skipSpace (isSpace_of_startsPrimary hc)
  obtain ⟨p, hp⟩ := ht
  have hu := Decimal.unsigned_of_spells hp (halts_append hb hr)
  have hv : p.value = x := Option.some.inj ((Decimal.float_of_spells hp).symm.trans hx)
  rw [number?, hs, ho r, ← List.cons_append, hu]
  simp [hv, skipSpace_append hb]

/-- A literal begins with a digit or a point. -/
theorem number_none {c : Char} {s t : List Char} (hs : skipSpace s = c :: t)
    (hd : c.isDigit = false) (hp : c ≠ '.') : number? s = none := by
  have hrun : Decimal.digitRun (c :: t) = ([], c :: t) := by
    refine @Decimal.digitRun_append [] (c :: t) nofun fun d hd' => ?_
    cases hd'
    exact hd
  have hfrac : Decimal.fractionRun (c :: t) = ([], c :: t) := by
    refine Decimal.fractionRun_of_ne fun d hd' => ?_
    cases hd'
    exact hp
  rw [number?, hs, Decimal.unsigned?]
  simp only [hrun, hfrac]
  rfl

theorem isDigit_of_isNameStart {c : Char} (h : isNameStart c = true) :
    c.isDigit = false ∧ c ≠ '.' := by
  constructor
  · cases hd : c.isDigit with
    | false => rfl
    | true =>
      simp only [isNameStart, Decimal.isAlpha_of_isDigit hd, Bool.or_false, beq_iff_eq] at h
      rw [h] at hd
      cases hd
  · rintro rfl
    exact absurd h (by decide)

/-- A name is no number. -/
theorem number_none_of_isName {t o r s : List Char} (ht : IsName t) (h : Spaced t o)
    (hs : skipSpace s = skipSpace (o ++ r)) : number? s = none := by
  obtain ⟨c, t', rfl, hc, -⟩ := ht
  have hstart : startsPrimary c = true := by simp [startsPrimary, hc]
  obtain ⟨b, -, ho⟩ := h.skipSpace (isSpace_of_startsPrimary hstart)
  obtain ⟨hd, hp⟩ := isDigit_of_isNameStart hc
  exact number_none (hs.trans (ho r)) hd hp

/-- A name that stands there is read. -/
theorem name_complete {t o r s : List Char} (ht : IsName t) (h : Spaced t o)
    (hr : Decimal.Halts r) (hs : skipSpace s = skipSpace (o ++ r)) :
    name? s = some (String.ofList t, skipSpace r) := by
  obtain ⟨c, t', rfl, hc, ht'⟩ := ht
  have hstart : startsPrimary c = true := by simp [startsPrimary, hc]
  obtain ⟨b, hb, ho⟩ := h.skipSpace (isSpace_of_startsPrimary hstart)
  have hbr := halts_append hb hr
  rw [name?, hs, ho r]
  simp only [hc, if_true, Decimal.takeWhile_append_of_head ht' hbr,
    Decimal.dropWhile_append_of_head ht' hbr, skipSpace_append hb]

theorem name_none {c : Char} {s t : List Char} (hs : skipSpace s = c :: t)
    (hc : isNameStart c = false) : name? s = none := by
  rw [name?, hs]
  simp [hc]

end SpellText.Expr
