import Mathlib.Data.List.TakeWhile
import SpellText.Proofs.Grammar.Completeness
import SpellText.Proofs.Grammar.Soundness

/-!
# Parsing expressions

A text is read as an expression exactly if it is a phrase of the grammar that
stays within the limits (`parse_iff`) : fewer than `depthLimit` enclosures around
every place where an operand is looked for, and a tree no higher than
`depthLimit`. Any other phrase is refused as too deep, and other texts are
refused for some reason. The limits do not matter to what a text means : reading
it with limits that are large enough for two phrases shows that they have the
same expression (`Derives.unique`).

The inside of an empty argument list counts as such a place, although nothing
stands there (`not_parse_iff_nesting`).
-/

namespace SpellText.Expr

variable {s : List Char} {c c' : Phrase}

/-- A whole text that is a phrase is read up to its end, if it fits. -/
theorem Derives.judged (h : Derives .comparison s c) {limit : Nat} (hlim : 0 < limit)
    (depth : Nat) :
    Judged (Fits limit depth c) (comparison limit (unary limit depth) s) c.expr [] :=
  h.finds hlim depth (ends_nil _) (by rw [List.append_nil])

/-- A text is at most one expression. -/
theorem Derives.unique (h : Derives .comparison s c) (h' : Derives .comparison s c') :
    c.expr = c'.expr := by
  -- Limits that neither phrase comes up to.
  let limit := c.expr.height + c'.expr.height + 1
  let depth := c.reach + c'.reach + 1
  have hlim : 0 < limit := Nat.succ_pos _
  have hfit : Fits limit depth c := ⟨by simp only [depth]; omega, by simp only [limit]; omega⟩
  have hfit' : Fits limit depth c' := ⟨by simp only [depth]; omega, by simp only [limit]; omega⟩
  rcases h.judged hlim depth with ⟨-, he⟩ | ⟨hn, -⟩
  · rcases h'.judged hlim depth with ⟨-, he'⟩ | ⟨hn, -⟩
    · exact (Outcome.done.inj (he.symm.trans he')).1
    · exact absurd hfit' hn
  · exact absurd hfit hn

/-! ## Whole texts -/

theorem isBlank_of_isSpace {c : Char} (h : isSpace c = true) : Text.isBlank c = true :=
  of_isSpace (by decide) h

theorem isBlank_of_startsOperand {c : Char} (h : startsOperand c = true) :
    Text.isBlank c = false := by
  simp only [startsOperand, startsPrimary, isNameStart, Text.isDigit_iff, Text.isAlpha_iff,
    Bool.or_eq_true, beq_iff_eq] at h
  rcases h with (rfl | rfl) | ((rfl | rfl) | h) | rfl | h
  all_goals try decide
  all_goals
    simp only [Text.isBlank, Text.inRanges, Text.blankRanges, List.any_cons, List.any_nil,
      Bool.or_false, Bool.or_eq_false_iff, Bool.and_eq_false_iff, decide_eq_false_iff_not]
    omega

/-- A phrase is not blank. -/
theorem Derives.trim_ne (h : Derives .comparison s c) : (Text.trim s).isEmpty = false := by
  obtain ⟨d, t, hs, hd⟩ := h.begins
  obtain ⟨a, ha, hsa⟩ := exists_blanks s
  have hblank : ∀ c ∈ a, Text.isBlank c = true := fun c hc => isBlank_of_isSpace (ha c hc)
  have hstart : Text.trimStart s = d :: t := by
    rw [hsa, hs, Text.trimStart, List.dropWhile_append_of_pos hblank, List.dropWhile_cons_of_neg]
    rw [isBlank_of_startsOperand hd]
    exact Bool.false_ne_true
  have hne : Text.trimEnd (d :: t) ≠ [] := by
    intro hnil
    rw [Text.trimEnd, List.reverse_eq_nil_iff, List.dropWhile_eq_nil_iff] at hnil
    have := hnil d (by simp)
    rw [isBlank_of_startsOperand hd] at this
    cases this
  rw [Text.trim, hstart]
  simpa using hne

theorem depthLimit_pos : 0 < depthLimit := by decide

/-- What derives and fits is parsed. -/
theorem parseChars_of_fits (h : Derives .comparison s c) (hf : Fits depthLimit depthLimit c) :
    parseChars s = .ok c.expr := by
  rw [parseChars, h.trim_ne]
  rcases h.judged depthLimit_pos depthLimit with ⟨-, he⟩ | ⟨hn, -⟩
  · simp [he]
  · exact absurd hf hn

/-- What derives and does not fit is refused as too deep. -/
theorem parseChars_of_not_fits (h : Derives .comparison s c) (hf : ¬ Fits depthLimit depthLimit c) :
    ∃ offset, parseChars s = .error (.tooDeep offset) := by
  rw [parseChars, h.trim_ne]
  rcases h.judged depthLimit_pos depthLimit with ⟨hn, -⟩ | ⟨-, place, he⟩
  · exact absurd hn hf
  · simp [he]

/-- What is read is a phrase within the limits. -/
theorem derives_of_parseChars {e : Expr} (h : parseChars s = .ok e) :
    ∃ c, Derives .comparison s c ∧ c.expr = e ∧ Fits depthLimit depthLimit c := by
  unfold parseChars at h
  split at h
  · cases h
  · dsimp only at h
    split at h
    · next e' he =>
      cases h
      obtain ⟨p, c, hs, hc, rfl, hdepth, hheight⟩ :=
        takes_comparison (takes_unary depthLimit_pos) he
      rw [List.append_nil] at hs
      exact ⟨c, hs ▸ hc, rfl, hdepth, hheight⟩
    · cases h
    · cases h
    · cases h

/-- A source is read as an expression exactly if it is a phrase of the grammar with
that expression, with less than `depthLimit` signs, parentheses, exponent positions
and argument lists around every place where an operand is looked for, and with a tree
no higher than `depthLimit`. A phrase beyond the limits is refused as too deep, and
what is no phrase is refused for some reason. Phrases of the same source have the
same expression. -/
theorem parse_iff (source : String) :
    (∀ e, parse source = .ok e ↔ ∃ c, Derives .comparison source.toList c ∧ c.expr = e ∧
        c.reach < depthLimit ∧ e.height ≤ depthLimit) ∧
      (∀ c, Derives .comparison source.toList c →
        depthLimit ≤ c.reach ∨ depthLimit < c.expr.height →
          ∃ offset, parse source = .error (.tooDeep offset)) ∧
      ((¬ ∃ c, Derives .comparison source.toList c) → ∃ error, parse source = .error error) ∧
      ∀ c c', Derives .comparison source.toList c → Derives .comparison source.toList c' →
        c.expr = c'.expr := by
  refine ⟨fun e => ⟨fun h => ?_, ?_⟩, fun c hc hf => ?_, fun hn => ?_, fun c c' => Derives.unique⟩
  · obtain ⟨c, hc, rfl, hdepth, hheight⟩ := derives_of_parseChars h
    exact ⟨c, hc, rfl, hdepth, hheight⟩
  · rintro ⟨c, hc, rfl, hdepth, hheight⟩
    exact parseChars_of_fits hc ⟨hdepth, hheight⟩
  · refine parseChars_of_not_fits hc fun ⟨hdepth, hheight⟩ => ?_
    omega
  · cases h : parse source with
    | ok e =>
      obtain ⟨c, hc, -⟩ := derives_of_parseChars h
      exact absurd ⟨c, hc⟩ hn
    | error error => exact ⟨error, rfl⟩

/-! ## Empty argument lists -/

/-- A call without arguments behind so many signs. -/
def signs : Nat → Phrase
  | 0 => .call "f" []
  | n + 1 => .signed .minus (signs n)

/-- How it is written. -/
def signsText (n : Nat) : List Char := List.replicate n '-' ++ "f()".toList

theorem spaced_self (t : List Char) : Spaced t t := ⟨[], [], nofun, nofun, by simp⟩

theorem derives_signs : ∀ n, Derives .unary (signsText n) (signs n)
  | 0 => by
    have hname : IsName "f".toList := ⟨'f', [], rfl, rfl, nofun⟩
    exact .unsigned (.base (.call hname (spaced_self _) (spaced_self ['(']) .none
      (spaced_self [')'])))
  | n + 1 => by
    have h : Derives .unary (['-'] ++ signsText n) (.signed .minus (signs n)) :=
      .signed (spaced_self ['-']) (derives_signs n)
    exact h

theorem derives_signs_comparison (n : Nat) : Derives .comparison (signsText n) (signs n) := by
  have hterm : Derives .term (signsText n ++ []) (signs n) := .chain rfl (derives_signs n) .nil
  have hadd : Derives .additive (signsText n ++ [] ++ []) (signs n) := .chain rfl hterm .nil
  have hcmp : Derives .comparison (signsText n ++ [] ++ [] ++ []) (signs n) := .chain rfl hadd .nil
  simpa using hcmp

theorem nesting_signs : ∀ n, (signs n).nesting = n
  | 0 => rfl
  | n + 1 => congrArg (· + 1) (nesting_signs n)

theorem reach_signs : ∀ n, (signs n).reach = n + 1
  | 0 => rfl
  | n + 1 => congrArg (· + 1) (reach_signs n)

theorem height_signs : ∀ n, (signs n).expr.height = n + 1
  | 0 => rfl
  | n + 1 => congrArg (· + 1) (height_signs n)

/-- Counting operands only would be wrong : behind 63 signs a call without arguments
is refused, although no operand has more around it and its tree is not too high. -/
theorem not_parse_iff_nesting :
    ¬ ∀ (source : String) (e : Expr), parse source = .ok e ↔
      ∃ c, Derives .comparison source.toList c ∧ c.expr = e ∧ c.nesting ≤ 63 ∧ e.height ≤ 64 := by
  intro h
  have hd : Derives .comparison (String.ofList (signsText 63)).toList (signs 63) := by
    rw [String.toList_ofList]
    exact derives_signs_comparison 63
  have hok := (h (String.ofList (signsText 63)) (signs 63).expr).2
    ⟨_, hd, rfl, Nat.le_of_eq (nesting_signs 63), Nat.le_of_eq (height_signs 63)⟩
  have hn : ¬ Fits depthLimit depthLimit (signs 63) := by
    rintro ⟨hreach, -⟩
    rw [reach_signs] at hreach
    exact absurd hreach (by decide)
  obtain ⟨offset, he⟩ := parseChars_of_not_fits hd hn
  cases hok.symm.trans he

end SpellText.Expr
