import Mathlib.Data.List.TakeDrop
import SpellText.Expr.Parser

/-!
# Literals

How an unsigned decimal is written (`Parts.Spells`) : digits with an optional
fraction, or a point with a fraction, and an optional exponent, which has
digits. Reading one takes such a text off the input (`spells_of_unsigned`), and
takes it off whole where nothing stands behind it that could go on with it
(`unsigned_of_spells`).
-/

namespace SpellText.Decimal

/-- Nothing but digits. -/
def Digits (ds : List Char) : Prop := ∀ c ∈ ds, c.isDigit = true

/-- The digits in front of the exponent. -/
inductive Mantissa : List Char → List Char → List Char → Prop
  | whole {ds : List Char} : ds ≠ [] → Digits ds → Mantissa ds [] ds
  | pointed {ds fs : List Char} :
    ds ≠ [] ∨ fs ≠ [] → Digits ds → Digits fs → Mantissa ds fs (ds ++ '.' :: fs)

/-- No exponent, or its mark with digits that may have a sign. -/
inductive Exponent : Bool → List Char → List Char → Prop
  | none : Exponent false [] []
  | plain {mark : Char} {ds : List Char} :
    isExponentMark mark = true → ds ≠ [] → Digits ds → Exponent false ds (mark :: ds)
  | plus {mark : Char} {ds : List Char} :
    isExponentMark mark = true → ds ≠ [] → Digits ds → Exponent false ds (mark :: '+' :: ds)
  | minus {mark : Char} {ds : List Char} :
    isExponentMark mark = true → ds ≠ [] → Digits ds → Exponent true ds (mark :: '-' :: ds)

/-- The text is an unsigned decimal with the given digits. -/
def Parts.Spells (p : Parts) (t : List Char) : Prop :=
  ∃ m x, Mantissa p.whole p.fraction m ∧ Exponent p.down p.exponent x ∧ t = m ++ x

/-! ## Runs of characters -/

/-- A run of characters is cut off whole where another one follows, or nothing. -/
theorem takeWhile_append_of_head {p : Char → Bool} {run r : List Char} (h : ∀ c ∈ run, p c = true)
    (hr : ∀ c ∈ r.head?, p c = false) : (run ++ r).takeWhile p = run := by
  rw [List.takeWhile_append_of_pos h]
  cases r with
  | nil => simp
  | cons c r => simp [hr c rfl]

theorem dropWhile_append_of_head {p : Char → Bool} {run r : List Char} (h : ∀ c ∈ run, p c = true)
    (hr : ∀ c ∈ r.head?, p c = false) : (run ++ r).dropWhile p = r := by
  rw [List.dropWhile_append_of_pos h]
  cases r with
  | nil => rfl
  | cons c r => simp [hr c rfl]

/-- Digits are read off as far as they go. -/
theorem digitRun_append {ds r : List Char} (hd : Digits ds)
    (hr : ∀ c ∈ r.head?, c.isDigit = false) : digitRun (ds ++ r) = (ds, r) := by
  rw [digitRun, List.span_eq_takeWhile_dropWhile, takeWhile_append_of_head hd hr,
    dropWhile_append_of_head hd hr]

/-- What is cut off is a run of digits. -/
theorem digits_of_run {s ds r : List Char} (h : digitRun s = (ds, r)) :
    Digits ds ∧ s = ds ++ r := by
  rw [digitRun, List.span_eq_takeWhile_dropWhile] at h
  obtain ⟨rfl, rfl⟩ := Prod.mk.inj h
  exact ⟨List.all_eq_true.1 List.all_takeWhile, List.takeWhile_append_dropWhile.symm⟩

theorem fractionRun_of_ne {s : List Char} (h : ∀ c ∈ s.head?, c ≠ '.') :
    fractionRun s = ([], s) := by
  unfold fractionRun
  split
  · exact absurd rfl (h '.' rfl)
  · rfl

/-! ## Reading a literal -/

/-- The digits in front of the exponent are a mantissa. -/
theorem mantissa_of_runs {s ds fs r r' : List Char} (h : digitRun s = (ds, r))
    (hf : fractionRun r = (fs, r')) (hne : (ds.isEmpty && fs.isEmpty) = false) :
    ∃ m, Mantissa ds fs m ∧ s = m ++ r' := by
  obtain ⟨hd, rfl⟩ := digits_of_run h
  have hne' : ds ≠ [] ∨ fs ≠ [] := by
    cases ds <;> cases fs <;> simp at hne ⊢
  unfold fractionRun at hf
  split at hf
  · obtain ⟨hd', rfl⟩ := digits_of_run hf
    exact ⟨_, .pointed hne' hd hd', by simp⟩
  · obtain ⟨rfl, rfl⟩ := Prod.mk.inj hf
    exact ⟨ds, .whole (hne'.resolve_right fun h => h rfl) hd, rfl⟩

/-- What stands behind the mark of an exponent makes an exponent with it. -/
theorem exponent_of_run {mark : Char} {s tail ds r : List Char} {down : Bool}
    (hm : isExponentMark mark = true) (hs : splitSign s = (down, tail))
    (h : digitRun tail = (ds, r)) (hne : ds ≠ []) :
    ∃ x, Exponent down ds x ∧ mark :: s = x ++ r := by
  obtain ⟨hd, rfl⟩ := digits_of_run h
  unfold splitSign at hs
  split at hs
  · obtain ⟨rfl, rfl⟩ := Prod.mk.inj hs
    exact ⟨_, .plus hm hne hd, rfl⟩
  · obtain ⟨rfl, rfl⟩ := Prod.mk.inj hs
    exact ⟨_, .minus hm hne hd, rfl⟩
  · obtain ⟨rfl, rfl⟩ := Prod.mk.inj hs
    exact ⟨_, .plain hm hne hd, rfl⟩

/-- Reading takes a literal off the text. -/
theorem spells_of_unsigned {s rest : List Char} {p : Parts} (h : unsigned? s = some (p, rest)) :
    ∃ t, p.Spells t ∧ s = t ++ rest := by
  obtain ⟨ds, r, hd⟩ : ∃ ds r, digitRun s = (ds, r) := ⟨_, _, rfl⟩
  obtain ⟨fs, r', hf⟩ : ∃ fs r', fractionRun r = (fs, r') := ⟨_, _, rfl⟩
  unfold unsigned? at h
  simp only [hd, hf] at h
  split at h
  · cases h
  · next hne =>
    obtain ⟨m, hm, rfl⟩ := mantissa_of_runs hd hf (Bool.eq_false_iff.2 hne)
    split at h
    · next c tail =>
      split at h
      · next hc =>
        obtain ⟨down, tail', hs⟩ : ∃ down tail', splitSign tail = (down, tail') := ⟨_, _, rfl⟩
        rw [hs] at h
        dsimp only at h
        split at h
        · cases h
        · next exponent rest' hne' hr =>
          obtain ⟨rfl, rfl⟩ := Prod.mk.inj (Option.some.inj h)
          obtain ⟨x, hx, hs'⟩ := exponent_of_run hc hs hr hne'
          exact ⟨m ++ x, ⟨m, x, hm, hx, rfl⟩, by rw [hs', List.append_assoc]⟩
      · obtain ⟨rfl, rfl⟩ := Prod.mk.inj (Option.some.inj h)
        exact ⟨m, ⟨m, [], hm, .none, (List.append_nil m).symm⟩, rfl⟩
    · obtain ⟨rfl, rfl⟩ := Prod.mk.inj (Option.some.inj h)
      exact ⟨m, ⟨m, [], hm, .none, (List.append_nil m).symm⟩, rfl⟩

/-- The text goes on with nothing that could belong to a literal or a name. -/
def Halts (r : List Char) : Prop := ∀ c ∈ r.head?, Expr.isNameRest c = false

theorem isDigit_of_halts {r : List Char} (h : Halts r) : ∀ c ∈ r.head?, c.isDigit = false := by
  intro c hc
  have := h c hc
  simp only [Expr.isNameRest, Char.isAlphanum, Bool.or_eq_false_iff] at this
  exact this.2.2

/-- Where a numeral ends no exponent follows. -/
theorem not_isExponentMark_of_halts {c : Char} {r : List Char} (h : Halts (c :: r)) :
    isExponentMark c = false := by
  cases hc : isExponentMark c with
  | false => rfl
  | true =>
    have hn := h c rfl
    simp only [isExponentMark, Bool.or_eq_true, beq_iff_eq] at hc
    rcases hc with rfl | rfl <;> exact absurd hn (by decide)

/-- Neither run of digits goes on behind the mantissa. -/
theorem runs_of_mantissa {ds fs m y : List Char} (h : Mantissa ds fs m)
    (hd : ∀ c ∈ y.head?, c.isDigit = false) (hp : ∀ c ∈ y.head?, c ≠ '.') :
    ∃ z, digitRun (m ++ y) = (ds, z) ∧ fractionRun z = (fs, y) := by
  cases h with
  | whole _ hds => exact ⟨y, digitRun_append hds hd, fractionRun_of_ne hp⟩
  | pointed _ hds hfs =>
    refine ⟨'.' :: (fs ++ y), ?_, digitRun_append hfs hd⟩
    rw [List.append_assoc]
    exact digitRun_append hds fun c hc => by cases hc; decide

theorem isEmpty_of_mantissa {ds fs m : List Char} (h : Mantissa ds fs m) :
    (ds.isEmpty && fs.isEmpty) = false := by
  cases h with
  | whole hne _ => simp [hne]
  | pointed hne _ _ => rcases hne with hne | hne <;> simp [hne]

theorem splitSign_of_digits {ds r : List Char} (hne : ds ≠ []) (hd : Digits ds) :
    splitSign (ds ++ r) = (false, ds ++ r) := by
  obtain ⟨d, ds, rfl⟩ := List.exists_cons_of_ne_nil hne
  have hdig := hd d List.mem_cons_self
  unfold splitSign
  split
  · next h =>
    cases h
    exact absurd hdig (by decide)
  · next h =>
    cases h
    exact absurd hdig (by decide)
  · rfl

/-- An exponent is a mark, an optional sign and digits. -/
theorem runs_of_exponent {down : Bool} {ds x r : List Char} (h : Exponent down ds x)
    (hr : ∀ c ∈ r.head?, c.isDigit = false) :
    (down = false ∧ ds = [] ∧ x = []) ∨
      ∃ mark tail tail', x ++ r = mark :: tail ∧ isExponentMark mark = true ∧
        splitSign tail = (down, tail') ∧ digitRun tail' = (ds, r) ∧ ds ≠ [] := by
  cases h with
  | none => exact .inl ⟨rfl, rfl, rfl⟩
  | plain hm hne hd =>
    exact .inr ⟨_, _, _, rfl, hm, splitSign_of_digits hne hd, digitRun_append hd hr, hne⟩
  | plus hm hne hd => exact .inr ⟨_, _, _, rfl, hm, rfl, digitRun_append hd hr, hne⟩
  | minus hm hne hd => exact .inr ⟨_, _, _, rfl, hm, rfl, digitRun_append hd hr, hne⟩

theorem ne_of_isExponentMark {c : Char} (h : isExponentMark c = true) :
    c.isDigit = false ∧ c ≠ '.' := by
  simp only [isExponentMark, Bool.or_eq_true, beq_iff_eq] at h
  rcases h with rfl | rfl <;> decide

/-- A literal is read whole where nothing goes on with it. -/
theorem unsigned_of_spells {p : Parts} {t r : List Char} (h : p.Spells t) (hr : Halts r) :
    unsigned? (t ++ r) = some (p, r) := by
  obtain ⟨m, x, hm, hx, rfl⟩ := h
  obtain ⟨whole, fraction, down, exponent⟩ := p
  dsimp only at hm hx
  have hne := isEmpty_of_mantissa hm
  rw [List.append_assoc]
  rcases runs_of_exponent hx (isDigit_of_halts hr) with
    ⟨rfl, rfl, rfl⟩ | ⟨mark, tail, tail', hxr, hmark, hs, hd, hexp⟩
  · obtain ⟨z, hz, hz'⟩ := runs_of_mantissa hm (isDigit_of_halts hr) fun c hc hcp => by
      have := hr c hc
      rw [hcp] at this
      exact absurd this (by decide)
    rw [List.nil_append]
    unfold unsigned?
    simp only [hz, hz', hne]
    cases r with
    | nil => rfl
    | cons c r => simp [not_isExponentMark_of_halts hr]
  · obtain ⟨hdig, hpt⟩ := ne_of_isExponentMark hmark
    rw [hxr]
    obtain ⟨z, hz, hz'⟩ := runs_of_mantissa (y := mark :: tail) hm
      (fun c hc => by cases hc; exact hdig) fun c hc => by cases hc; exact hpt
    unfold unsigned?
    simp only [hz, hz', hne, hmark, hs, hd]
    obtain ⟨d, ds, rfl⟩ := List.exists_cons_of_ne_nil hexp
    rfl

/-! ## Values of literals -/

theorem isAlpha_of_isDigit {c : Char} (h : c.isDigit = true) : c.isAlpha = false := by
  have hd := Text.isDigit_iff.1 h
  rw [Bool.eq_false_iff, Ne, Text.isAlpha_iff]
  omega

theorem toLower_of_isDigit {c : Char} (h : c.isDigit = true) : c.toLower = c := by
  have hd := Text.isDigit_iff.1 h
  unfold Char.toLower
  rw [dif_neg]
  intro hc
  have h65 : 65 ≤ c.toNat := hc.1
  omega

/-- A literal begins with a digit or a point. -/
theorem head_of_spells {p : Parts} {t : List Char} (h : p.Spells t) :
    ∃ c t', t = c :: t' ∧ (c.isDigit = true ∨ c = '.') := by
  obtain ⟨m, x, hm, -, rfl⟩ := h
  have hc : ∃ c m', m = c :: m' ∧ (c.isDigit = true ∨ c = '.') := by
    generalize p.whole = ds, p.fraction = fs at hm
    cases hm with
    | whole hne hd =>
      obtain ⟨d, ds, rfl⟩ := List.exists_cons_of_ne_nil hne
      exact ⟨d, ds, rfl, .inl (hd d List.mem_cons_self)⟩
    | pointed _ hd _ =>
      cases ds with
      | nil => exact ⟨_, _, rfl, .inr rfl⟩
      | cons d ds => exact ⟨d, _, rfl, .inl (hd d List.mem_cons_self)⟩
  obtain ⟨c, m', rfl, hc⟩ := hc
  exact ⟨c, m' ++ x, rfl, hc⟩

/-- The value of a literal is that of its digits. -/
theorem float_of_spells {p : Parts} {t : List Char} (h : p.Spells t) :
    float? t = some p.value := by
  have hu : unsigned? t = some (p, []) := by
    have := unsigned_of_spells (r := []) h nofun
    rwa [List.append_nil] at this
  obtain ⟨c, t', rfl, hc⟩ := head_of_spells h
  have hword : ∀ d w, d.isAlpha = true → (c :: t').map Char.toLower ≠ d :: w := by
    intro d w hd he
    have hcd : c.toLower = d := (List.cons.inj he).1
    rw [← hcd] at hd
    rcases hc with hc | rfl
    · rw [toLower_of_isDigit hc, isAlpha_of_isDigit hc] at hd
      cases hd
    · exact absurd hd (by decide)
  have hm : magnitude? (c :: t') = some p.value := by
    unfold magnitude?
    have h1 : (c :: t').map Char.toLower ≠ "inf".toList := hword 'i' _ (by decide)
    have h2 : (c :: t').map Char.toLower ≠ "infinity".toList := hword 'i' _ (by decide)
    have h3 : (c :: t').map Char.toLower ≠ "nan".toList := hword 'n' _ (by decide)
    simp only [h1, h2, h3, decide_false, Bool.or_self, Bool.false_eq_true, if_false, hu]
  unfold float?
  split
  · next he =>
    cases he
    exact absurd hc (by decide)
  · next he =>
    cases he
    exact absurd hc (by decide)
  · exact hm

end SpellText.Decimal
