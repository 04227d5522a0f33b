import SpellText.Proofs.Grammar.Tokens

/-!
# What readers find

A reader that stands in front of a phrase of its level reads the whole phrase,
if it keeps within the depth and its tree within the limit, and else says that
it is too deep (`Finds`). The text behind the phrase must not go on with it,
which is what `Ends` says ; in the grammar it never does.

There is one lemma for each way to make a phrase. They take what is said of its
parts as a hypothesis, and `Derives.finds` puts them together along the
derivation.
-/

namespace SpellText.Expr

/-! ## Where phrases begin -/

theorem startsOperand_of_startsPrimary {c : Char} (h : startsPrimary c = true) :
    startsOperand c = true := by
  simp [startsOperand, h]

theorem Begins.operand {s : List Char} (h : Begins startsPrimary s) : Begins startsOperand s := by
  obtain ⟨c, s', hs, hc⟩ := h
  exact ⟨c, s', hs, startsOperand_of_startsPrimary hc⟩

theorem Begins.of_name {t s : List Char} (ht : IsName t) (h : Spaced t s) :
    Begins startsPrimary s := by
  obtain ⟨c, t', rfl, hc, -⟩ := startsPrimary_of_isName ht
  exact .of_spaced h (isSpace_of_startsPrimary hc) hc

theorem Begins.of_literal {t s : List Char} (ht : IsLiteral t) (h : Spaced t s) :
    Begins startsPrimary s := by
  obtain ⟨c, t', rfl, hc, -⟩ := startsPrimary_of_isLiteral ht
  exact .of_spaced h (isSpace_of_startsPrimary hc) hc

theorem Begins.of_sign {sign : Sign} {o : List Char} (h : Spaced [sign.char] o) :
    Begins startsOperand o := by
  cases sign with
  | plus => exact .of_spaced h rfl rfl
  | minus => exact .of_spaced h rfl rfl

/-- What stands for a power or less begins as an operand without signs. -/
theorem Derives.begins_primary : ∀ {l : Level} {s : List Char} {c : Phrase}, Derives l s c →
    l = .power ∨ l = .primary → Begins startsPrimary s
  | _, _, _, .chain hl _ _, h => by rcases h with rfl | rfl <;> cases hl
  | _, _, _, .power hc _ _, _ => (hc.begins_primary (.inr rfl)).append _
  | _, _, _, .base hc, _ => hc.begins_primary (.inr rfl)
  | _, _, _, .parens ho _ _, _ => (Begins.of_spaced ho rfl rfl).append _
  | _, _, _, .number ht _ hs, _ => .of_literal ht hs
  | _, _, _, .name ht hs, _ => .of_name ht hs
  | _, _, _, .call ht hs _ _ _, _ => (Begins.of_name ht hs).append _

/-- A phrase begins with an operand. -/
theorem Derives.begins : ∀ {l : Level} {s : List Char} {c : Phrase}, Derives l s c →
    Begins startsOperand s
  | _, _, _, .chain _ hc _ => hc.begins.append _
  | _, _, _, .signed ho _ => (Begins.of_sign ho).append _
  | _, _, _, .unsigned hc => hc.begins
  | _, _, _, .power hc ho hc' => (Derives.power hc ho hc').begins_primary (.inl rfl) |>.operand
  | _, _, _, .base hc => hc.begins
  | _, _, _, .parens ho _ _ => (Begins.of_spaced ho rfl rfl).append _
  | _, _, _, .number ht _ hs => (Begins.of_literal ht hs).operand
  | _, _, _, .name ht hs => (Begins.of_name ht hs).operand
  | _, _, _, .call ht hs _ _ _ => ((Begins.of_name ht hs).append _).operand

/-- What goes on with a chain ends its operands. -/
theorem Continues.ends {l l' : Level} {c c' : Phrase} {s r : List Char}
    (h : Continues l l' c s c') (hl : l.operand? = some l') (hr : Ends l r) : Ends l' (s ++ r) := by
  cases h with
  | nil => exact hr.operand hl
  | cons hop ho hd _ =>
    rw [List.append_assoc, List.append_assoc]
    exact ends_of_op (hop ▸ hl) ho (hd.begins.append _)

/-- A comma ends an argument. -/
theorem Further.ends {s r : List Char} {cs : List Phrase} (h : Further s cs)
    (hr : Ends .comparison r) : Ends .comparison (s ++ r) := by
  cases h with
  | nil => exact hr
  | cons ho _ _ =>
    rw [List.append_assoc]
    exact ends_of_spaced ho (.inr rfl) _ _

/-! ## Limits -/

/-- The phrase keeps within the depth, and its tree within the limit. -/
def Fits (limit depth : Nat) (c : Phrase) : Prop := c.reach < depth ∧ c.expr.height ≤ limit

/-- The arguments keep within the depth, which has to be there even for none, and
their trees within the limit. -/
def FitArgs (limit depth : Nat) (cs : List Phrase) : Prop :=
  Phrase.reachOfArgs cs < depth ∧ tallest (Phrase.exprs cs) ≤ limit

variable {limit depth : Nat}

/-- A phrase that nothing is inside of fits. -/
theorem fits_leaf (hlim : 0 < limit) {c : Phrase} (hr : c.reach = 0) (hh : c.expr.height = 1) :
    Fits limit (depth + 1) c :=
  ⟨by omega, by omega⟩

theorem fits_parens {c : Phrase} : Fits limit (depth + 1) (.parens c) ↔ Fits limit depth c := by
  rw [Fits, Fits, Phrase.reach_parens, Nat.succ_lt_succ_iff]
  rfl

/-- What is made of phrases fits if they do, each as deep as it stands, and if its tree is
not too high. -/
theorem fits_signed {sign : Sign} {c : Phrase} : Fits limit (depth + 1) (.signed sign c) ↔
    Fits limit depth c ∧ (Phrase.signed sign c).expr.height ≤ limit := by
  have hheight : (Phrase.signed sign c).expr.height = c.expr.height + 1 := rfl
  rw [Fits, Fits, Phrase.reach_signed]
  omega

/-- A power fits if its base does, its exponent one level further in, and their tree is not too
high. -/
theorem fits_pow {c d : Phrase} : Fits limit (depth + 1) (.binary .pow c d) ↔
    Fits limit (depth + 1) c ∧ Fits limit depth d ∧
      (Phrase.binary .pow c d).expr.height ≤ limit := by
  have hheight : (Phrase.binary .pow c d).expr.height
      = max c.expr.height d.expr.height + 1 := rfl
  rw [Fits, Fits, Fits, Phrase.reach_pow]
  omega

theorem fits_binary {op : Op} (hne : op ≠ .pow) {c d : Phrase} : Fits limit depth (.binary op c d) ↔
    Fits limit depth c ∧ Fits limit depth d ∧ (Phrase.binary op c d).expr.height ≤ limit := by
  have hheight : (Phrase.binary op c d).expr.height
      = max c.expr.height d.expr.height + 1 := rfl
  rw [Fits, Fits, Fits, Phrase.reach_binary hne]
  omega

/-- A call fits if its arguments do one level further in and its tree is not too high. -/
theorem fits_call {f : String} {cs : List Phrase} : Fits limit (depth + 1) (.call f cs) ↔
    FitArgs limit depth cs ∧ (Phrase.call f cs).expr.height ≤ limit := by
  have hheight : (Phrase.call f cs).expr.height = tallest (Phrase.exprs cs) + 1 := rfl
  rw [Fits, FitArgs, Phrase.reach_call]
  omega

theorem fitArgs_cons {c : Phrase} {cs : List Phrase} :
    FitArgs limit depth (c :: cs) ↔ Fits limit depth c ∧ FitArgs limit depth cs := by
  simp only [FitArgs, Fits, Phrase.reachOfArgs_cons, Phrase.exprs, tallest]
  omega

/-! ## Outcomes -/

/-- The value is there where it fits, and else it is said to be too deep. -/
def Judged {α : Type} (fits : Prop) (o : Outcome α) (a : α) (rest : List Char) : Prop :=
  fits ∧ o = .done a rest ∨ ¬ fits ∧ ∃ place, o = .tooDeep place

theorem Judged.congr {α : Type} {fits fits' : Prop} {o : Outcome α} {a : α} {rest : List Char}
    (h : Judged fits o a rest) (hf : fits ↔ fits') : Judged fits' o a rest := by
  rwa [Judged, ← hf]

/-- A part comes first that fits if the whole does. -/
theorem Judged.andThen {α β : Type} {fits fits' : Prop} {o : Outcome α} {a : α} {b : β}
    {k : α → List Char → Outcome β} {r rest : List Char} (h : Judged fits o a r)
    (hf : fits' → fits) (hk : fits → Judged fits' (k a r) b rest) :
    Judged fits' (o.andThen k) b rest := by
  rcases h with ⟨hfit, rfl⟩ | ⟨hfit, place, rfl⟩
  · exact hk hfit
  · exact .inr ⟨fun h => hfit (hf h), place, rfl⟩

theorem judged_done {α : Type} {fits : Prop} (h : fits) (a : α) (rest : List Char) :
    Judged fits (.done a rest) a rest :=
  .inl ⟨h, rfl⟩

/-- A tree is refused if and only if it is too high. -/
theorem judged_grown (limit : Nat) (place : List Char) (e : Expr) (rest : List Char) :
    Judged (e.height ≤ limit) (grown limit place e rest) e rest := by
  unfold grown
  split
  · next h => exact .inr ⟨Nat.not_le.2 h, place, rfl⟩
  · next h => exact .inl ⟨Nat.not_lt.1 h, rfl⟩

/-- In front of the phrase the reader finds it, if it fits. -/
def Finds (limit depth : Nat) (l : Level) (p : List Char) (c : Phrase) (read : Reader) : Prop :=
  ∀ {r s : List Char}, Ends l r → skipSpace s = skipSpace (p ++ r) →
    Judged (Fits limit depth c) (read s) c.expr (skipSpace r)

/-! ## Chains -/

/-- The power sign stands in no chain. -/
theorem Op.ne_pow {op : Op} {l l' : Level} (hop : op.level = l) (hl : l.operand? = some l') :
    op ≠ .pow := by
  rintro rfl
  subst hop
  cases hl

/-- Going on with a chain makes it neither lower nor shallower. -/
theorem Continues.le : ∀ {l l' : Level} {c c' : Phrase} {s : List Char}, Continues l l' c s c' →
    l.operand? = some l' → c.reach ≤ c'.reach ∧ c.expr.height ≤ c'.expr.height
  | _, _, _, _, _, .nil, _ => ⟨Nat.le_refl _, Nat.le_refl _⟩
  | _, _, c, _, _, @Continues.cons _ _ op _ _ _ _ d _ hop _ _ h, hl => by
    obtain ⟨hr, hh⟩ := h.le hl
    rw [Phrase.reach_binary (Op.ne_pow hop hl)] at hr
    have hh' : max c.expr.height d.expr.height + 1 ≤ _ := hh
    omega

/-- Where a chain fits, what it began with fits. -/
theorem Continues.fits {l l' : Level} {c c' : Phrase} {s : List Char} (h : Continues l l' c s c')
    (hl : l.operand? = some l') (hf : Fits limit depth c') : Fits limit depth c := by
  obtain ⟨hr, hh⟩ := h.le hl
  obtain ⟨hr', hh'⟩ := hf
  exact ⟨Nat.lt_of_le_of_lt hr hr', Nat.le_trans hh hh'⟩

/-- What a chain reader finds behind the phrase `c`. So many rounds are left that the
tree would be too high after all of them. -/
def FindsRest (limit depth : Nat) (l : Level) (c : Phrase) (p : List Char) (c' : Phrase)
    (read : Nat → Expr → Reader) : Prop :=
  ∀ {rounds : Nat} {r : List Char}, Ends l r → Fits limit depth c →
    limit < c.expr.height + rounds →
      Judged (Fits limit depth c') (read rounds c.expr (skipSpace (p ++ r))) c'.expr (skipSpace r)

section

variable {l l' : Level} {op? : List Char → Option (Op × List Char)} {read : Reader}
  (hop? : FindsOp l op?)
include hop?

/-- A chain ends where no operator of its level follows. -/
theorem findsRest_nil (c : Phrase) :
    FindsRest limit depth l c [] c (chainRest limit op? read) := by
  intro rounds r hr hc hrounds
  cases rounds with
  | zero => exact judged_done hc _ _
  | succ rounds =>
    have hnone : op? (skipSpace ([] ++ r)) = none := hop?.none hr (skipSpace_skipSpace r)
    rw [chainRest, hnone]
    exact judged_done hc _ _

/-- A chain goes on with an operator and an operand. -/
theorem findsRest_cons (hl : l.operand? = some l') {op : Op} {o p p' : List Char}
    {c d c' : Phrase} (hop : op.level = l) (ho : Spaced op.symbol.toList o)
    (hd : Derives l' p d) (hcont : Continues l l' (.binary op c d) p' c')
    (hread : Finds limit depth l' p d read)
    (hrest : FindsRest limit depth l (.binary op c d) p' c' (chainRest limit op? read)) :
    FindsRest limit depth l c (o ++ (p ++ p')) c' (chainRest limit op? read) := by
  intro rounds r hr hc hrounds
  have hfits : Fits limit depth (.binary op c d) ↔ _ := fits_binary (Op.ne_pow hop hl)
  have hfind : op? (skipSpace (o ++ (p ++ p') ++ r)) = some (op, skipSpace (p ++ (p' ++ r))) := by
    refine hop?.found hop ho (hd.begins.append _) ?_
    rw [skipSpace_skipSpace, List.append_assoc, List.append_assoc]
  cases rounds with
  | zero => exact absurd hc.2 (Nat.not_le.2 hrounds)
  | succ rounds =>
    rw [chainRest, hfind]
    refine (hread (hcont.ends hl hr) (skipSpace_skipSpace _)).andThen
      (fun hf => (hfits.1 (hcont.fits hl hf)).2.1) fun hd => ?_
    refine (judged_grown _ _ _ _).andThen (fun hf => (hcont.fits hl hf).2) fun hh => ?_
    have hheight : (Phrase.binary op c d).expr.height
        = max c.expr.height d.expr.height + 1 := rfl
    exact hrest hr (hfits.2 ⟨hc, hd, hh⟩) (by omega)

omit hop? in
/-- A chain is found by its first operand and the rest. -/
theorem finds_chain (hl : l.operand? = some l') {p p' : List Char} {c c' : Phrase}
    (hcont : Continues l l' c p' c') (hread : Finds limit depth l' p c read)
    (hrest : FindsRest limit depth l c p' c' (chainRest limit op? read)) :
    Finds limit depth l (p ++ p') c' (chain limit op? read) := by
  intro r s hr hs
  rw [List.append_assoc] at hs
  refine (hread (hcont.ends hl hr) hs).andThen (fun hf => hcont.fits hl hf) fun hf => ?_
  have hpos : 0 < c.expr.height := by
    cases c.expr <;> simp [height]
  exact hrest hr hf (by omega)

end

/-! ## Argument lists -/

/-- A closing parenthesis follows. -/
def Closes (r : List Char) : Prop := ∃ t, skipSpace r = ')' :: t

theorem closes_of_spaced {o : List Char} (h : Spaced [')'] o) (r : List Char) :
    Closes (o ++ r) := by
  obtain ⟨b, -, ho⟩ := h.skipSpace rfl
  exact ⟨b ++ r, ho r⟩

theorem Closes.ends {r : List Char} (h : Closes r) : Ends .comparison r := by
  obtain ⟨t, ht⟩ := h
  intro c t' hs
  rw [ht] at hs
  cases hs
  exact ⟨by decide, nofun⟩

theorem length_skipSpace_le (s : List Char) : (skipSpace s).length ≤ s.length :=
  (List.dropWhile_sublist isSpace).length_le

/-- What the reader of arguments finds behind the first ones. The rounds are as many
as there are characters. -/
def FindsFurther (limit depth : Nat) (p : List Char) (cs : List Phrase) (argument : Reader) :
    Prop :=
  ∀ {rounds : List Char} {done : List Expr} {r : List Char}, Closes r → 0 < depth →
    (skipSpace (p ++ r)).length ≤ rounds.length →
      Judged (FitArgs limit depth cs) (argumentsRest argument rounds done (skipSpace (p ++ r)))
        (done.reverse ++ Phrase.exprs cs) (skipSpace r)

section

variable {argument : Reader}

/-- Arguments end at a closing parenthesis. -/
theorem findsFurther_nil : FindsFurther limit depth [] [] argument := by
  intro rounds done r hr hd hrounds
  have hfit : FitArgs limit depth [] := ⟨hd, Nat.zero_le _⟩
  obtain ⟨t, ht⟩ := hr
  have hnone : symbol? ',' (skipSpace ([] ++ r)) = none := by
    refine symbol_none fun t' ht' => ?_
    rw [skipSpace_skipSpace, List.nil_append, ht] at ht'
    cases ht'
  have hdone : argumentsRest argument rounds done (skipSpace ([] ++ r))
      = .done done.reverse (skipSpace r) := by
    cases rounds with
    | nil => rfl
    | cons _ rounds => rw [argumentsRest, hnone, List.nil_append]
  rw [hdone, Phrase.exprs, List.append_nil]
  exact judged_done hfit _ _

/-- Arguments go on with a comma and an argument. -/
theorem findsFurther_cons {o p p' : List Char} {c : Phrase} {cs : List Phrase}
    (ho : Spaced [','] o) (hcs : Further p' cs)
    (hread : Finds limit depth .comparison p c argument)
    (hrest : FindsFurther limit depth p' cs argument) :
    FindsFurther limit depth (o ++ (p ++ p')) (c :: cs) argument := by
  intro rounds done r hr hd hrounds
  have hcomma : symbol? ',' (skipSpace (o ++ (p ++ p') ++ r))
      = some (skipSpace (p ++ (p' ++ r))) := by
    refine symbol_complete ho rfl ?_
    rw [skipSpace_skipSpace, List.append_assoc, List.append_assoc]
  obtain ⟨b, -, hb⟩ := ho.skipSpace rfl
  have hlen : (skipSpace (p' ++ r)).length < rounds.length := by
    refine Nat.lt_of_lt_of_le ?_ hrounds
    rw [List.append_assoc, hb]
    have := length_skipSpace_le (p' ++ r)
    simp only [List.length_append, List.length_cons] at *
    omega
  cases rounds with
  | nil => cases hlen
  | cons _ rounds =>
    rw [argumentsRest, hcomma]
    rcases hread (hcs.ends hr.ends) (skipSpace_skipSpace _) with ⟨hfit, he⟩ | ⟨hfit, place, he⟩
    · have := @hrest rounds (c.expr :: done) r hr hd (Nat.le_of_lt_succ hlen)
      rw [List.reverse_cons, List.append_assoc] at this
      simp only [he]
      exact this.congr (by rw [fitArgs_cons, and_iff_right hfit])
    · simp only [he]
      exact .inr ⟨fun h => hfit (fitArgs_cons.1 h).1, place, rfl⟩

end

/-! ## Operands -/

theorem Closes.symbol {r : List Char} (h : Closes r) : symbol? '(' r = none := by
  obtain ⟨t, ht⟩ := h
  refine symbol_none fun t' ht' => ?_
  rw [ht] at ht'
  cases ht'

/-- In front of a closing parenthesis there is no operand. -/
theorem unary_closes {r : List Char} (h : Closes r) (limit depth : Nat) :
    unary limit (depth + 1) r = .unexpected (skipSpace r) := by
  have hsign : sign? r = none := by
    obtain ⟨t, ht⟩ := h
    rw [sign?, ht]
    rfl
  have hnumber : number? r = none := by
    obtain ⟨t, ht⟩ := h
    exact number_none ht rfl (by decide)
  have hname : name? r = none := by
    obtain ⟨t, ht⟩ := h
    exact name_none ht rfl
  rw [unary_of_no_sign hsign]
  simp only [power, primary, h.symbol, hnumber, nameOrCall, hname, Outcome.andThen]

/-- No expression begins with a parenthesis that closes. -/
theorem comparison_closes {r : List Char} (h : Closes r) (limit depth : Nat) :
    comparison limit (unary limit (depth + 1)) r = .unexpected (skipSpace r) := by
  simp only [comparison, chain, unary_closes h, Outcome.andThen]

/-- What the reader of argument lists finds, called where one level less is left. -/
def FindsArgs (limit depth : Nat) (p : List Char) (cs : List Phrase) : Prop :=
  ∀ {r : List Char}, Closes r →
    Judged (FitArgs limit depth cs)
      (arguments (comparison limit (unary limit depth)) (skipSpace (p ++ r))) (Phrase.exprs cs)
      (skipSpace r)

theorem findsArgs_none : FindsArgs limit depth [] [] := by
  intro r hr
  cases depth with
  | zero => exact .inr ⟨fun h => Nat.not_lt_zero _ h.1, _, rfl⟩
  | succ depth =>
    have hr' : Closes (skipSpace r) := by
      obtain ⟨t, ht⟩ := hr
      exact ⟨t, by rw [skipSpace_skipSpace, ht]⟩
    rw [List.nil_append, arguments, comparison_closes hr']
    exact judged_done ⟨Nat.succ_pos depth, Nat.zero_le _⟩ _ _

theorem findsArgs_some {p p' : List Char} {c : Phrase} {cs : List Phrase} (hcs : Further p' cs)
    (hread : Finds limit depth .comparison p c (comparison limit (unary limit depth)))
    (hrest : FindsFurther limit depth p' cs (comparison limit (unary limit depth))) :
    FindsArgs limit depth (p ++ p') (c :: cs) := by
  intro r hr
  rw [List.append_assoc, arguments]
  rcases hread (hcs.ends hr.ends) (skipSpace_skipSpace _) with ⟨hfit, he⟩ | ⟨hfit, place, he⟩
  · have hd : 0 < depth := Nat.lt_of_le_of_lt (Nat.zero_le _) hfit.1
    have := @hrest (skipSpace (p' ++ r)) [c.expr] r hr hd (Nat.le_refl _)
    simp only [he]
    exact this.congr (by rw [fitArgs_cons, and_iff_right hfit])
  · simp only [he]
    exact .inr ⟨fun h => hfit (fitArgs_cons.1 h).1, place, rfl⟩

/-- A numeral is found as an operand. -/
theorem finds_number (hlim : 0 < limit) {t p : List Char} {x : Float} (ht : IsLiteral t)
    (hx : Decimal.float? t = some x) (hp : Spaced t p) :
    Finds limit (depth + 1) .primary p (.number x) (primary limit (unary limit depth)) := by
  intro r s hr hs
  obtain ⟨c, t', rfl, hc, hne⟩ := startsPrimary_of_isLiteral ht
  have hopen : symbol? '(' s = none :=
    symbol_none_of_spaced hp (isSpace_of_startsPrimary hc) hne hs
  rw [primary, hopen, number_complete ht hx hp hr.halts hs]
  exact judged_done (fits_leaf hlim rfl rfl) _ _

/-- What begins with a name is neither in parentheses nor a number. -/
theorem primary_of_name {t p r s : List Char} (ht : IsName t) (hp : Spaced t p)
    (hs : skipSpace s = skipSpace (p ++ r)) (operand : Reader) :
    primary limit operand s = nameOrCall limit operand s := by
  have hnumber := number_none_of_isName ht hp hs
  obtain ⟨c, t', rfl, hc, hne⟩ := startsPrimary_of_isName ht
  have hopen : symbol? '(' s = none :=
    symbol_none_of_spaced hp (isSpace_of_startsPrimary hc) hne hs
  rw [primary, hopen, hnumber]

/-- A name is found as an operand. -/
theorem finds_name (hlim : 0 < limit) {t p : List Char} (ht : IsName t) (hp : Spaced t p) :
    Finds limit (depth + 1) .primary p (.name (String.ofList t))
      (primary limit (unary limit depth)) := by
  intro r s hr hs
  have hopen : symbol? '(' (skipSpace r) = none := by
    refine symbol_none fun u hu => ?_
    rw [skipSpace_skipSpace] at hu
    exact absurd (hr _ _ hu).1 (by decide)
  rw [primary_of_name ht hp hs, nameOrCall, name_complete ht hp hr.halts hs]
  simp only [hopen]
  exact judged_done (fits_leaf hlim rfl rfl) _ _

/-- A call is found by its name and its arguments. -/
theorem finds_call {t p o p' o' : List Char} {cs : List Phrase} (ht : IsName t)
    (hp : Spaced t p) (ho : Spaced ['('] o) (ho' : Spaced [')'] o')
    (hargs : FindsArgs limit depth p' cs) :
    Finds limit (depth + 1) .primary (p ++ (o ++ (p' ++ o'))) (.call (String.ofList t) cs)
      (primary limit (unary limit depth)) := by
  intro r s hr hs
  simp only [List.append_assoc] at hs
  have hopen : symbol? '(' (skipSpace (o ++ (p' ++ (o' ++ r))))
      = some (skipSpace (p' ++ (o' ++ r))) := symbol_complete ho rfl (skipSpace_skipSpace _)
  have hclose : symbol? ')' (skipSpace (o' ++ r)) = some (skipSpace r) :=
    symbol_complete ho' rfl (skipSpace_skipSpace _)
  rw [primary_of_name ht hp hs, nameOrCall, name_complete ht hp (halts_of_spaced ho rfl _) hs]
  simp only [hopen]
  refine (hargs (closes_of_spaced ho' r)).andThen (fun hf => (fits_call.1 hf).1) fun hfit => ?_
  simp only [hclose]
  refine (judged_grown limit _ (Phrase.call (String.ofList t) cs).expr _).congr ?_
  rw [fits_call, and_iff_right hfit]

/-- Parentheses are found by what is in them. -/
theorem finds_parens {o p o' : List Char} {c : Phrase} (ho : Spaced ['('] o) (ho' : Spaced [')'] o')
    (hread : Finds limit depth .comparison p c (comparison limit (unary limit depth))) :
    Finds limit (depth + 1) .primary (o ++ (p ++ o')) (.parens c)
      (primary limit (unary limit depth)) := by
  intro r s hr hs
  rw [List.append_assoc, List.append_assoc] at hs
  have hopen : symbol? '(' s = some (skipSpace (p ++ (o' ++ r))) := symbol_complete ho rfl hs
  have hclose : symbol? ')' (skipSpace (o' ++ r)) = some (skipSpace r) :=
    symbol_complete ho' rfl (skipSpace_skipSpace _)
  rw [primary, hopen]
  refine (hread (ends_of_spaced ho' (.inl rfl) _ r) (skipSpace_skipSpace _)).andThen
    fits_parens.1 fun hfit => ?_
  rw [hclose]
  exact judged_done (fits_parens.2 hfit) _ _

theorem finds_base {p : List Char} {c : Phrase}
    (hread : Finds limit (depth + 1) .primary p c (primary limit (unary limit depth))) :
    Finds limit (depth + 1) .power p c (power limit (unary limit depth)) := by
  intro r s hr hs
  refine (hread hr.primary hs).andThen id fun hfit => ?_
  have hnone : powerSign? (skipSpace r) = none :=
    powerSign_none ((Ends.congr (skipSpace_skipSpace r)).2 hr)
  rw [hnone]
  exact judged_done hfit _ _

/-- A power is found by its base and its exponent. -/
theorem finds_power {p o p' : List Char} {c c' : Phrase} (ho : Spaced Op.pow.symbol.toList o)
    (hread : Finds limit (depth + 1) .primary p c (primary limit (unary limit depth)))
    (hread' : Finds limit depth .unary p' c' (unary limit depth)) :
    Finds limit (depth + 1) .power (p ++ (o ++ p')) (.binary .pow c c')
      (power limit (unary limit depth)) := by
  intro r s hr hs
  rw [List.append_assoc, List.append_assoc] at hs
  have hfind : powerSign? (skipSpace (o ++ (p' ++ r))) = some (skipSpace (p' ++ r)) :=
    powerSign_complete ho (skipSpace_skipSpace _)
  refine (hread (ends_of_powerSign ho _) hs).andThen (fun hf => (fits_pow.1 hf).1) fun hfit => ?_
  simp only [hfind]
  refine (hread' (ends_power_iff.1 hr) (skipSpace_skipSpace _)).andThen
    (fun hf => (fits_pow.1 hf).2.1) fun hfit' => ?_
  refine (judged_grown limit _ (Phrase.binary .pow c c').expr _).congr ?_
  rw [fits_pow, and_iff_right hfit, and_iff_right hfit']

/-- Where no level is left, nothing fits. -/
theorem finds_zero (l : Level) (p : List Char) (c : Phrase) : Finds limit 0 l p c .tooDeep := by
  intro r s _ _
  exact .inr ⟨fun h => Nat.not_lt_zero _ h.1, s, rfl⟩

/-- A sign is found in front of an operand with signs. -/
theorem finds_signed {sign : Sign} {o p : List Char} {c : Phrase} (ho : Spaced [sign.char] o)
    (hread : Finds limit depth .unary p c (unary limit depth)) :
    Finds limit (depth + 1) .unary (o ++ p) (.signed sign c) (unary limit (depth + 1)) := by
  intro r s hr hs
  rw [List.append_assoc] at hs
  rw [unary_of_sign (sign_complete ho hs)]
  refine (hread hr (skipSpace_skipSpace _)).andThen (fun hf => (fits_signed.1 hf).1) fun hfit => ?_
  refine (judged_grown limit _ (Phrase.signed sign c).expr _).congr ?_
  rw [fits_signed, and_iff_right hfit]

/-- A power is an operand without signs. -/
theorem finds_unsigned {p : List Char} {c : Phrase} (hp : Derives .power p c)
    (hread : Finds limit (depth + 1) .power p c (power limit (unary limit depth))) :
    Finds limit (depth + 1) .unary p c (unary limit (depth + 1)) := by
  intro r s hr hs
  have hsign : sign? s = none := by
    refine sign_none ?_
    rw [Begins, hs]
    exact (hp.begins_primary (.inl rfl)).append r
  rw [unary_of_no_sign hsign]
  exact hread (ends_power_iff.2 hr) hs

/-! ## Derivations -/

/-- The reader of a level, with a depth that is still allowed. -/
def reader (limit : Nat) : Level → Nat → Reader
  | .comparison, depth => comparison limit (unary limit depth)
  | .additive, depth => chain limit additiveOp? (chain limit termOp? (unary limit depth))
  | .term, depth => chain limit termOp? (unary limit depth)
  | .unary, depth => unary limit depth
  | .power, depth + 1 => power limit (unary limit depth)
  | .primary, depth + 1 => primary limit (unary limit depth)
  | .power, 0 | .primary, 0 => .tooDeep

/-- The operators of a chain. -/
def Level.op? : Level → List Char → Option (Op × List Char)
  | .comparison => comparisonOp?
  | .additive => additiveOp?
  | _ => termOp?

theorem findsOp_level {l l' : Level} (hl : l.operand? = some l') : FindsOp l l.op? := by
  cases l with
  | comparison => exact findsOp_comparison
  | additive => exact findsOp_additive
  | term => exact findsOp_term
  | unary | power | primary => cases hl

/-- A level with operators reads a chain of the level below. -/
theorem reader_chain {l l' : Level} (hl : l.operand? = some l') (limit depth : Nat) :
    reader limit l depth = chain limit l.op? (reader limit l' depth) := by
  cases l <;> cases hl <;> rfl

mutual

/-- In front of a phrase the reader of its level finds it, if it fits. -/
theorem Derives.finds (hlim : 0 < limit) : ∀ {l : Level} {p : List Char} {c : Phrase},
    Derives l p c → ∀ depth, Finds limit depth l p c (reader limit l depth)
  | _, _, _, .chain hl hc hcont, depth => by
    rw [reader_chain hl]
    exact finds_chain hl hcont (hc.finds hlim depth) (hcont.finds hlim hl depth)
  | _, _, _, .signed _ _, 0 => finds_zero _ _ _
  | _, _, _, .signed ho hc, depth + 1 => finds_signed ho (hc.finds hlim depth)
  | _, _, _, .unsigned _, 0 => finds_zero _ _ _
  | _, _, _, .unsigned hc, depth + 1 => finds_unsigned hc (hc.finds hlim (depth + 1))
  | _, _, _, .power _ _ _, 0 => finds_zero _ _ _
  | _, _, _, .power hc ho hc', depth + 1 =>
    finds_power ho (hc.finds hlim (depth + 1)) (hc'.finds hlim depth)
  | _, _, _, .base _, 0 => finds_zero _ _ _
  | _, _, _, .base hc, depth + 1 => finds_base (hc.finds hlim (depth + 1))
  | _, _, _, .parens _ _ _, 0 => finds_zero _ _ _
  | _, _, _, .parens ho hc ho', depth + 1 => finds_parens ho ho' (hc.finds hlim depth)
  | _, _, _, .number _ _ _, 0 => finds_zero _ _ _
  | _, _, _, .number ht hx hp, _ + 1 => finds_number hlim ht hx hp
  | _, _, _, .name _ _, 0 => finds_zero _ _ _
  | _, _, _, .name ht hp, _ + 1 => finds_name hlim ht hp
  | _, _, _, .call _ _ _ _ _, 0 => finds_zero _ _ _
  | _, _, _, .call ht hp ho hcs ho', depth + 1 => finds_call ht hp ho ho' (hcs.finds hlim depth)

/-- The rest of every chain is found, at any depth. -/
theorem Continues.finds (hlim : 0 < limit) : ∀ {l l' : Level} {c c' : Phrase} {p : List Char},
    Continues l l' c p c' → l.operand? = some l' → ∀ depth,
      FindsRest limit depth l c p c' (chainRest limit l.op? (reader limit l' depth))
  | _, _, _, _, _, .nil, hl, _ => findsRest_nil (findsOp_level hl) _
  | _, _, _, _, _, .cons hop ho hd hcont, hl, depth =>
    findsRest_cons (findsOp_level hl) hl hop ho hd hcont (hd.finds hlim depth)
      (hcont.finds hlim hl depth)

/-- Arguments are found at any depth. -/
theorem Arguments.finds (hlim : 0 < limit) : ∀ {p : List Char} {cs : List Phrase},
    Arguments p cs → ∀ depth, FindsArgs limit depth p cs
  | _, _, .none, _ => findsArgs_none
  | _, _, .some hc hcs, depth => findsArgs_some hcs (hc.finds hlim depth) (hcs.finds hlim depth)

theorem Further.finds (hlim : 0 < limit) : ∀ {p : List Char} {cs : List Phrase},
    Further p cs → ∀ depth, FindsFurther limit depth p cs (comparison limit (unary limit depth))
  | _, _, .nil, _ => findsFurther_nil
  | _, _, .cons ho hc hcs, depth =>
    findsFurther_cons ho hcs (hc.finds hlim depth) (hcs.finds hlim depth)

end

end SpellText.Expr
