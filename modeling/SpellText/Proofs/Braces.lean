import SpellText.Placeholder
import SpellText.Proofs.Marking

/-!
# No braces in answers

The text that answers a request has no braces (`Request.noBrace_of_answer?`).
Numerals have none, and neither have the signs, slashes and parentheses around
them. What is left are the labels of scaling terms : a label is the label of a
hint or is made of letters and digits (`Formula.noBrace_scalingLabel`), and no
operation on amounts makes labels of its own (`Amount.Plain`).
-/

namespace SpellText

/-! ## Texts without braces -/

@[simp] theorem noBrace_nil : NoBrace [] := by
  simp [NoBrace]

@[simp] theorem noBrace_cons {c : Char} {s : List Char} :
    NoBrace (c :: s) ↔ Piece.isBrace c = false ∧ NoBrace s :=
  List.forall_mem_cons

@[simp] theorem noBrace_append {s t : List Char} : NoBrace (s ++ t) ↔ NoBrace s ∧ NoBrace t :=
  List.forall_mem_append

/-! ## Numerals -/

namespace Decimal

theorem isBrace_of_isNumeralChar {c : Char} (h : isNumeralChar c = true) :
    Piece.isBrace c = false := by
  cases hb : Piece.isBrace c with
  | false => rfl
  | true =>
    simp only [Piece.isBrace, Bool.or_eq_true, beq_iff_eq] at hb
    rcases hb with rfl | rfl <;> exact absurd h (by decide)

end Decimal

namespace Ranks

/-- No brace is in a row of ranks. -/
theorem noBrace_chars (cs : List Float) : NoBrace (chars cs) := by
  intro c hc
  rcases of_mem_chars hc with rfl | hc
  · decide
  · exact Decimal.isBrace_of_isNumeralChar hc

end Ranks

/-! ## Labels -/

namespace Text

/-- What holds of all ASCII characters can be checked one by one. -/
theorem forall_ascii {p : Char → Prop} (h : ∀ n < 128, p (Char.ofNat n)) {c : Char}
    (hc : c.toNat < 128) : p c := by
  have := h c.toNat hc
  rwa [Char.ofNat_toNat] at this

/-- The lower case of ASCII text. -/
theorem lowercaseAfter_ascii : ∀ (before : List Char) {s : List Char},
    (∀ c ∈ s, c.toNat < 128) → lowercaseAfter before s = s.map Char.toLower
  | _, [], _ => rfl
  | before, c :: s, h => by
    have hc := h c List.mem_cons_self
    have hσ : c ≠ capitalSigma := by
      rintro rfl
      exact absurd hc (by decide)
    rw [lowercaseAfter, if_neg hσ, lowerChar, if_pos hc,
      lowercaseAfter_ascii (c :: before) fun d hd => h d (List.mem_cons_of_mem _ hd)]
    rfl

end Text

namespace Name

/-- The characters of camel-cased names : letters and digits of ASCII. -/
def IsCamel (c : Char) : Prop := c.toNat < 128 ∧ Piece.isBrace c.toLower = false

theorem isCamel_of_isKeyChar {c : Char} (h : isKeyChar c = true) :
    IsCamel c ∧ IsCamel c.toUpper := by
  have hc : c.toNat < 128 := by
    simp only [isKeyChar, Text.isLower_iff, Text.isDigit_iff, Bool.or_eq_true] at h
    omega
  revert h
  refine Text.forall_ascii (p := fun c => isKeyChar c = true → IsCamel c ∧ IsCamel c.toUpper) ?_ hc
  unfold IsCamel
  decide

/-- Camel-casing gives ASCII characters other than braces. -/
theorem isCamel_of_mem_capitalizeRuns : ∀ {fresh : Bool} {s : List Char} {c : Char},
    c ∈ capitalizeRuns fresh s → IsCamel c
  | _, [], _, h => by simp [capitalizeRuns] at h
  | fresh, d :: s, c, h => by
    rw [capitalizeRuns] at h
    split at h
    · next hd =>
      rcases List.mem_cons.1 h with rfl | h
      · obtain ⟨h₁, h₂⟩ := isCamel_of_isKeyChar hd
        split <;> assumption
      · exact isCamel_of_mem_capitalizeRuns h
    · exact isCamel_of_mem_capitalizeRuns h

/-- No brace is in a camel-cased key. -/
theorem noBrace_camelLower (name : String) : NoBrace (camelLower name).toList := by
  have h : ∀ c ∈ (camelCase name).toList, IsCamel c := by
    intro c hc
    rw [camelCase, String.toList_ofList] at hc
    exact isCamel_of_mem_capitalizeRuns hc
  rw [camelLower, Text.lowercased, String.toList_ofList, Text.lowercase,
    Text.lowercaseAfter_ascii [] fun c hc => (h c hc).1]
  intro c hc
  obtain ⟨d, hd, rfl⟩ := List.mem_map.1 hc
  exact (h d hd).2

end Name

/-- No brace is in the label of a stat. -/
theorem Formula.noBrace_scalingLabel (name : String) : NoBrace (scalingLabel name).toList := by
  unfold scalingLabel
  dsimp only
  split
  · next hint h =>
    have : ∀ hint ∈ scalingHints, NoBrace hint.2.toList := by decide +kernel
    exact this hint (List.mem_of_find?_eq_some h)
  · exact Name.noBrace_camelLower name

/-! ## Amounts -/

namespace Amount

/-- No label of the amount has braces. -/
def Plain (a : Amount) : Prop := ∀ l ∈ a.labels, NoBrace l.toList

theorem plain_ofTerm {label : String} (h : NoBrace label.toList) (cs : List Float) :
    (ofTerm label cs).Plain := by
  intro l hl
  rwa [List.mem_singleton.1 hl]

theorem plain_ofRanks (cs : List Float) : (ofRanks cs).Plain := plain_ofTerm (by decide) cs

theorem Plain.mapTerms {a : Amount} (h : a.Plain) (f : List Float → List Float) :
    (a.mapTerms f).Plain := by
  unfold Plain Amount.mapTerms labels
  rw [Table.keys_map]
  exact h

theorem Plain.addTerm {a : Amount} (h : a.Plain) {label : String} (hl : NoBrace label.toList)
    (cs : List Float) : (a.addTerm label cs).Plain := by
  intro l hm
  rw [labels, Amount.addTerm, Table.keys_update] at hm
  split at hm
  · exact h l hm
  · rcases List.mem_append.1 hm with hm | hm
    · exact h l hm
    · rwa [List.mem_singleton.1 hm]

/-- Sums and differences of plain amounts are plain. -/
theorem plain_combine {sign : Float} {a b : Amount} (ha : a.Plain) (hb : b.Plain) :
    (combine sign a b).Plain := by
  have hb' : ∀ e ∈ b.terms.entries, NoBrace e.1.toList := fun e he =>
    hb e.1 (List.mem_map_of_mem he)
  unfold combine
  generalize b.terms.entries = es at hb'
  induction es generalizing a with
  | nil => exact ha
  | cons e es ih =>
    rw [List.foldl_cons]
    exact ih (ha.addTerm (hb' e List.mem_cons_self) _) fun d hd => hb' d (List.mem_cons_of_mem _ hd)

/-- Products of plain amounts are plain. -/
theorem plain_of_times {a b c : Amount} (ha : a.Plain) (hb : b.Plain) (h : a.times b = .ok c) :
    c.Plain := by
  unfold times at h
  split at h
  · cases h
    exact ha.mapTerms _
  · cases h
    exact hb.mapTerms _
  · cases h

theorem plain_of_dividedBy {a b c : Amount} (ha : a.Plain) (h : a.dividedBy b = .ok c) :
    c.Plain := by
  unfold dividedBy at h
  split at h
  · cases h
  · split at h
    · cases h
    · cases h
      exact ha.mapTerms _

theorem noBrace_termChars {label : String} (h : NoBrace label.toList) (cs : List Float) :
    NoBrace (termChars label cs) := by
  unfold termChars
  split
  · exact noBrace_nil
  · have hc := Ranks.noBrace_chars cs
    dsimp only
    split <;> simp [h, hc, Piece.isBrace]

/-- The text of an amount has the braces of its labels and no others. -/
theorem Plain.noBrace_chars {a : Amount} (h : a.Plain) : NoBrace a.chars := by
  refine noBrace_append.2 ⟨Ranks.noBrace_chars _, fun c hc => ?_⟩
  obtain ⟨e, he, hc⟩ := List.mem_flatMap.1 hc
  exact noBrace_termChars (h.mapTerms _ e.1 (List.mem_map_of_mem he)) e.2 c hc

end Amount

/-! ## Names, formulas and expressions -/

/-- Names stand for amounts whose labels have no braces. -/
def PlainLookup (lookup : Formula.Lookup) : Prop := ∀ n a, lookup n = .ok a → a.Plain

namespace Formula

variable {lookup : Lookup}

mutual

/-- Parts of formulas have plain amounts if names do. -/
theorem plain_of_evaluatePart (hl : PlainLookup lookup) :
    ∀ {p : Part} {a : Amount}, p.evaluate lookup = .ok a → a.Plain
  | .named n, a, h => hl n a h
  | .stat n, a, h => by
    obtain ⟨b, -, rfl⟩ := map_eq_ok.1 h
    exact Amount.plain_ofTerm (noBrace_scalingLabel n) _
  | .number x, a, h => by
    cases h
    exact Amount.plain_ofRanks _
  | .product p q, a, h => by
    rw [Part.evaluate] at h
    obtain ⟨b, hb, h⟩ := bind_eq_ok.1 h
    obtain ⟨c, hc, h⟩ := bind_eq_ok.1 h
    exact Amount.plain_of_times (plain_of_evaluatePart hl hb) (plain_of_evaluatePart hl hc) h
  | .sum ps, a, h => by
    rw [Part.evaluate] at h
    exact plain_of_sumParts hl (Amount.plain_ofRanks _) h
  | .unsupported kind, a, h => by simp [Part.evaluate] at h

theorem plain_of_sumParts (hl : PlainLookup lookup) : ∀ {ps : List Part} {total a : Amount},
    total.Plain → sumParts lookup total ps = .ok a → a.Plain
  | [], total, a, ht, h => by
    cases h
    exact ht
  | p :: ps, total, a, ht, h => by
    rw [sumParts] at h
    obtain ⟨b, hb, h⟩ := bind_eq_ok.1 h
    exact plain_of_sumParts hl (Amount.plain_combine ht (plain_of_evaluatePart hl hb)) h

end

end Formula

namespace Ability

/-- Names stand for plain amounts if formulas do. -/
theorem plain_of_amountWith {a : Ability} {stats : BaseStats}
    {formula : Formula → Except Fault Amount} (hf : ∀ f b, formula f = .ok b → b.Plain)
    {n : String} {b : Amount} (h : a.amountWith stats formula n = .ok b) : b.Plain := by
  unfold amountWith at h
  split at h
  · obtain ⟨cs, -, rfl⟩ := map_eq_ok.1 h
    exact Amount.plain_ofRanks cs
  · exact hf _ b h
  · cases h

/-- What the names of an ability stand for has no labels with braces. -/
theorem plain_amountWithin (a : Ability) (stats : BaseStats) (levels : Nat) :
    PlainLookup (a.amountWithin stats levels) := by
  induction levels with
  | zero =>
    intro n b h
    rw [amountWithin] at h
    exact plain_of_amountWith (fun _ _ hf => by cases hf) h
  | succ levels ih =>
    intro n b h
    rw [amountWithin] at h
    exact plain_of_amountWith (fun _ _ hf =>
      Formula.plain_of_sumParts ih (Amount.plain_ofRanks _) hf) h

end Ability

namespace Expr

/-- Operations on plain amounts give plain ones. -/
theorem plain_of_result? {op : Op} {a b c : Amount} (ha : a.Plain) (hb : b.Plain)
    (h : op.result? a b = some (.ok c)) : c.Plain := by
  cases op with
  | add =>
    cases h
    exact Amount.plain_combine ha hb
  | sub =>
    cases h
    exact Amount.plain_combine ha hb
  | mul => exact Amount.plain_of_times ha hb (Option.some.inj h)
  | div => exact Amount.plain_of_dividedBy ha (Option.some.inj h)
  | _ => cases h

/-- Expressions have plain amounts if names do. -/
theorem plain_of_evaluate {lookup : Formula.Lookup} (hl : PlainLookup lookup) :
    ∀ {e : Expr} {a : Amount}, e.evaluate lookup = .ok a → a.Plain
  | .number x, _, h => by
    cases h
    exact Amount.plain_ofRanks _
  | .name s, a, h => hl s a h
  | .signed sign e, _, h => by
    rw [evaluate] at h
    obtain ⟨b, hb, h⟩ := bind_eq_ok.1 h
    cases h
    cases sign with
    | plus => exact plain_of_evaluate hl hb
    | minus => exact (plain_of_evaluate hl hb).mapTerms _
  | .binary op l r, _, h => by
    rw [evaluate] at h
    obtain ⟨b, hb, h⟩ := bind_eq_ok.1 h
    obtain ⟨c, hc, h⟩ := bind_eq_ok.1 h
    cases hr : op.result? b c with
    | none => simp [hr] at h
    | some result =>
      rw [hr, Option.getD_some] at h
      exact plain_of_result? (plain_of_evaluate hl hb) (plain_of_evaluate hl hc) (h ▸ hr)
  | .call f args, _, h => by
    rw [evaluate] at h
    cases h

end Expr

/-! ## Requests -/

namespace Request

/-- No brace is in the text that is calculated for an expression. -/
theorem noBrace_of_expressionText {c : Champion} {ability : Ability} {source text : String}
    (h : expressionText c ability source = .ok text) : NoBrace text.toList := by
  obtain ⟨a, ha, rfl⟩ := map_eq_ok.1 h
  rw [Amount.text, String.toList_ofList]
  refine Amount.Plain.noBrace_chars ?_
  unfold Expr.evaluateText at ha
  split at ha
  · cases ha
  · split at ha
    · exact Expr.plain_of_evaluate (ability.plain_amountWithin c.stats _) ha
    · cases ha

/-- No brace is in the text that answers a request. -/
theorem noBrace_of_text {c : Champion} : ∀ {r : Request} {ability : Ability} {text : String},
    Request.text c r ability = .ok text → NoBrace text.toList
  | .expression _, _, _, h => noBrace_of_expressionText h
  | .refer reference inner, _, text, h => by
    rw [Request.text] at h
    split at h
    · exact noBrace_of_text h
    · cases h
  | .malformed _, _, _, h => by cases h

/-- Answers have no braces. -/
theorem noBrace_of_answer? {c : Champion} {ability : Option Ability} {r : Request} {text : String}
    (h : r.answer? c ability = some (.ok text)) : NoBrace text.toList := by
  cases r with
  | expression source =>
    obtain ⟨a, -, h⟩ := Option.map_eq_some_iff.1 h
    exact noBrace_of_expressionText h
  | refer reference inner =>
    rw [answer?] at h
    split at h
    · exact noBrace_of_text (Option.some.inj h)
    · cases h
  | malformed tail => cases h

end Request

end SpellText
