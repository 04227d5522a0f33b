import SpellText.Placeholder
import SpellText.Proofs.Derivations

/-!
# What is passed over in silence

A placeholder that is no reference is passed over because of its own text, and never because
of the numbers of the ability : `Request.text_skips_by_text`. Its fault is one of the text if
and only if the text is no expression or one that is not calculated.

The other half is that the numbers never blame the text. Names, formulas and the arithmetic
on amounts have faults of their own (`Fault.SparesText`), and a simple expression has no node
without an amount (`Expr.sparesText_evaluate`). Names and formulas call each other; the
induction is on the parts of a formula, and then on the levels of formulas that are left.
-/

namespace SpellText

/-! ## Faults of the text -/

namespace Fault

/-- The fault can be told from the text of a placeholder and the abilities there are. All
other faults are about the numbers of an ability. -/
def isOfText : Fault → Bool
  | complexExpression _ => true
  | invalidSyntax _ _ => true
  | unsupportedExpression _ => true
  | unknownReference _ => true
  | malformedReference _ => true
  | _ => false

/-- A fault that is not of the text is reported. -/
theorem severity_of_isOfText : ∀ {f : Fault}, f.isOfText = false → f.severity = .failure
  | unsupportedPart _, _ => rfl
  | unknownPlaceholder _ _, _ => rfl
  | nonScalarProduct, _ => rfl
  | nonScalarDivisor, _ => rfl
  | divisionByZero, _ => rfl
  | invalidEffectBurn _, _ => rfl
  | formulaTooDeep _ _, _ => rfl

/-- If the step fails, then not because of the text. -/
def SparesText {α : Type} (x : Except Fault α) : Prop := ∀ f, x = .error f → f.isOfText = false

section

variable {α β : Type} {x : Except Fault α}

theorem sparesText_ok (a : α) : SparesText (.ok a) := nofun

theorem sparesText_error {f : Fault} (h : f.isOfText = false) :
    SparesText (.error f : Except Fault α) := fun _ he => Except.error.inj he ▸ h

/-- Steps that spare the faults of texts do so one after the other. -/
theorem SparesText.bind {k : α → Except Fault β} (hx : SparesText x)
    (hk : ∀ a, SparesText (k a)) : SparesText (x >>= k) := fun f h => by
  rcases bind_eq_error.1 h with h | ⟨a, -, h⟩
  · exact hx f h
  · exact hk a f h

theorem SparesText.map (hx : SparesText x) (g : α → β) : SparesText (x.map g) := fun f h =>
  hx f (map_eq_error.1 h)

end

end Fault

open Fault (SparesText sparesText_ok sparesText_error)

/-! ## Numbers of an ability -/

namespace Amount

/-- A product fails by no fault of a text. -/
theorem sparesText_times (a b : Amount) : SparesText (a.times b) := by
  unfold times
  split
  · exact sparesText_ok _
  · exact sparesText_ok _
  · exact sparesText_error rfl

theorem sparesText_dividedBy (a b : Amount) : SparesText (a.dividedBy b) := by
  unfold dividedBy
  split
  · exact sparesText_error rfl
  · split
    · exact sparesText_error rfl
    · exact sparesText_ok _

end Amount

namespace Formula

variable {lookup : Lookup}

mutual

/-- A part of a formula spares the text where the names in it do. -/
theorem sparesText_evaluatePart (hl : ∀ name, SparesText (lookup name)) :
    ∀ p : Part, SparesText (p.evaluate lookup)
  | .named name => hl name
  | .stat name => (hl name).map _
  | .number _ => sparesText_ok _
  | .product left right =>
    (sparesText_evaluatePart hl left).bind fun a =>
      (sparesText_evaluatePart hl right).bind fun b => a.sparesText_times b
  | .sum parts => sparesText_sumParts hl parts .zero
  | .unsupported _ => sparesText_error rfl

/-- A sum of parts fails by no fault of a text if the lookup does not. -/
theorem sparesText_sumParts (hl : ∀ name, SparesText (lookup name)) :
    ∀ (parts : List Part) (total : Amount), SparesText (sumParts lookup total parts)
  | [], _ => sparesText_ok _
  | part :: rest, total =>
    (sparesText_evaluatePart hl part).bind fun a => sparesText_sumParts hl rest (total + a)

end

end Formula

namespace Ability

variable (a : Ability) (stats : BaseStats)

/-- A name fails by no fault of a text if the formulas do not. -/
theorem sparesText_amountWith {formula : Formula → Except Fault Amount}
    (hf : ∀ f, SparesText (formula f)) (name : String) :
    SparesText (a.amountWith stats formula name) := by
  unfold amountWith
  split
  · next cs hm =>
    cases cs with
    | ok cs => exact sparesText_ok _
    | error e =>
      obtain ⟨burn, rfl⟩ := exists_burn_of_meaning hm
      exact sparesText_error rfl
  · exact hf _
  · exact sparesText_error rfl

/-- The names of an ability spare the text, however formulas refer to each other. -/
theorem sparesText_amountWithin (levels : Nat) (name : String) :
    SparesText (a.amountWithin stats levels name) := by
  induction levels generalizing name with
  | zero => exact a.sparesText_amountWith stats (fun _ => sparesText_error rfl) name
  | succ levels ih =>
    exact a.sparesText_amountWith stats
      (fun f => Formula.sparesText_sumParts ih f.parts .zero) name

end Ability

/-! ## Expressions -/

namespace Expr

variable {lookup : Formula.Lookup}

/-- The operations of simple expressions have a result, and it spares the text. -/
theorem Op.exists_result {op : Op} (ho : op.isArithmetic = true) (a b : Amount) :
    ∃ r, op.result? a b = some r ∧ SparesText r := by
  cases op with
  | add => exact ⟨_, rfl, sparesText_ok _⟩
  | sub => exact ⟨_, rfl, sparesText_ok _⟩
  | mul => exact ⟨_, rfl, a.sparesText_times b⟩
  | div => exact ⟨_, rfl, a.sparesText_dividedBy b⟩
  | _ => cases ho

/-- A simple expression spares the text where the names in it do. -/
theorem sparesText_evaluate (hl : ∀ name, SparesText (lookup name)) :
    ∀ {e : Expr}, e.isSimple = true → SparesText (e.evaluate lookup)
  | number _, _ => sparesText_ok _
  | name s, _ => hl s
  | signed _ e, hs => (sparesText_evaluate hl (e := e) hs).bind fun _ => sparesText_ok _
  | binary op l r, hs => by
    simp only [isSimple, Bool.and_eq_true] at hs
    obtain ⟨⟨ho, hsl⟩, hsr⟩ := hs
    refine (sparesText_evaluate hl hsl).bind fun a => (sparesText_evaluate hl hsr).bind fun b => ?_
    obtain ⟨result, hresult, h⟩ := op.exists_result ho a b
    rw [hresult]
    exact h
  | call _ _, hs => by cases hs

/-- An expression is not calculated if it is not simple or has not exactly one name. -/
theorem isCalculated_eq_false_iff {e : Expr} :
    e.isCalculated = false ↔ e.isSimple = false ∨ e.nameCount ≠ 1 := by
  rw [isCalculated, Bool.and_eq_false_iff, beq_eq_false_iff_ne]

/-- What becomes of a text : no expression, one that is not calculated, or an amount or
fault that spares the text. -/
theorem evaluateText_cases (hl : ∀ name, SparesText (lookup name)) (source : String) :
    (∃ e, parse source = .error e ∧
      evaluateText lookup source = .error (.invalidSyntax source e)) ∨
    (∃ e, parse source = .ok e ∧ e.isCalculated = false ∧
      evaluateText lookup source = .error (.complexExpression source)) ∨
    ∃ e, parse source = .ok e ∧ e.isCalculated = true ∧
      SparesText (evaluateText lookup source) := by
  rw [evaluateText]
  cases hp : parse source with
  | error e => exact .inl ⟨e, rfl, rfl⟩
  | ok e =>
    cases hc : e.isCalculated with
    | false => exact .inr (.inl ⟨e, rfl, hc, by simp [hc]⟩)
    | true =>
      obtain ⟨hs, -⟩ := Bool.and_eq_true_iff.1 hc
      exact .inr (.inr ⟨e, rfl, hc, by simpa [hc] using sparesText_evaluate hl hs⟩)

end Expr

/-! ## Requests -/

namespace Request

/-- A text that is no reference is an expression. -/
theorem ofText_of_afterReferenceStart {s : String} (h : afterReferenceStart? s.toList = none) :
    ofText s = .expression s := by
  rw [ofText, ofChars, h]
  exact congrArg expression String.ofList_toList

section

variable (c : Champion) (ability : Ability) {s : String}

/-- What becomes of a text that is no reference. -/
theorem text_cases (h : afterReferenceStart? s.toList = none) :
    (∃ e, Expr.parse s = .error e ∧
      (ofText s).text c ability = .error (.invalidSyntax s e)) ∨
    (∃ e, Expr.parse s = .ok e ∧ e.isCalculated = false ∧
      (ofText s).text c ability = .error (.complexExpression s)) ∨
    ∃ e, Expr.parse s = .ok e ∧ e.isCalculated = true ∧
      SparesText ((ofText s).text c ability) := by
  have ht : (ofText s).text c ability
      = (Expr.evaluateText (ability.amount c.stats) s).map Amount.text := by
    rw [ofText_of_afterReferenceStart h]
    rfl
  rw [ht]
  rcases Expr.evaluateText_cases (ability.sparesText_amountWithin c.stats _) s with
    ⟨e, hp, hr⟩ | ⟨e, hp, hc, hr⟩ | ⟨e, hp, hc, hr⟩
  · exact .inl ⟨e, hp, congrArg (Except.map Amount.text) hr⟩
  · exact .inr (.inl ⟨e, hp, hc, congrArg (Except.map Amount.text) hr⟩)
  · exact .inr (.inr ⟨e, hp, hc, hr.map _⟩)

/-- A text is of wrong syntax if and only if it does not parse. -/
theorem text_eq_invalidSyntax_iff (h : afterReferenceStart? s.toList = none) {t : String}
    {e : Expr.SyntaxError} : (ofText s).text c ability = .error (.invalidSyntax t e) ↔
      t = s ∧ Expr.parse s = .error e := by
  rcases text_cases c ability h with ⟨e', hp, hr⟩ | ⟨e', hp, -, hr⟩ | ⟨e', hp, -, hr⟩
  · rw [hr, hp]
    constructor
    · rintro ⟨⟩
      exact ⟨rfl, rfl⟩
    · rintro ⟨rfl, ⟨⟩⟩
      rfl
  · rw [hr, hp]
    exact ⟨nofun, nofun⟩
  · rw [hp]
    exact ⟨fun hf => absurd (hr _ hf) nofun, nofun⟩

/-- A text is too complex if and only if it parses to what is not calculated. -/
theorem text_eq_complexExpression_iff (h : afterReferenceStart? s.toList = none) {t : String} :
    (ofText s).text c ability = .error (.complexExpression t) ↔
      t = s ∧ ∃ e, Expr.parse s = .ok e ∧ e.isCalculated = false := by
  rcases text_cases c ability h with ⟨e, hp, hr⟩ | ⟨e, hp, hc, hr⟩ | ⟨e, hp, hc, hr⟩
  · rw [hr, hp]
    exact ⟨nofun, nofun⟩
  · rw [hr, hp]
    constructor
    · rintro ⟨⟩
      exact ⟨rfl, e, rfl, hc⟩
    · rintro ⟨rfl, -⟩
      rfl
  · rw [hp]
    refine ⟨fun hf => absurd (hr _ hf) nofun, ?_⟩
    rintro ⟨-, _, ⟨⟩, hc'⟩
    exact absurd (hc.symm.trans hc') nofun

/-- A fault is invalid syntax, an expression that is not calculated, or none of the text. -/
theorem fault_of_text (h : afterReferenceStart? s.toList = none) {f : Fault}
    (hf : (ofText s).text c ability = .error f) :
    (∃ e, f = .invalidSyntax s e) ∨ f = .complexExpression s ∨ f.isOfText = false := by
  rcases text_cases c ability h with ⟨e, -, hr⟩ | ⟨e, -, -, hr⟩ | ⟨e, -, -, hr⟩
  · exact .inl ⟨e, Except.error.inj (hf.symm.trans hr)⟩
  · exact .inr (.inl (Except.error.inj (hf.symm.trans hr)))
  · exact .inr (.inr (hr f hf))

/-- Of a text that is no reference, invalid syntax and an expression that is not calculated
are told from the text alone. Only the latter is passed over, so that what goes wrong with
the numbers of an ability is always reported. -/
theorem text_skips_by_text (h : afterReferenceStart? s.toList = none) :
    (∀ t e, (ofText s).text c ability = .error (.invalidSyntax t e) ↔
      t = s ∧ Expr.parse s = .error e) ∧
    (∀ t, (ofText s).text c ability = .error (.complexExpression t) ↔
      t = s ∧ ∃ e, Expr.parse s = .ok e ∧ (e.isSimple = false ∨ e.nameCount ≠ 1)) ∧
    ∀ f, (ofText s).text c ability = .error f →
      (∀ d, f ≠ .unsupportedExpression d) ∧ (∀ r, f ≠ .unknownReference r) ∧
        (∀ t, f ≠ .malformedReference t) ∧
        (f.severity = .skip ↔
          ∃ e, Expr.parse s = .ok e ∧ (e.isSimple = false ∨ e.nameCount ≠ 1)) := by
  simp only [← Expr.isCalculated_eq_false_iff]
  refine ⟨fun _ _ => text_eq_invalidSyntax_iff c ability h,
    fun _ => text_eq_complexExpression_iff c ability h, fun f hf => ?_⟩
  have hcomplex : f = .complexExpression s ↔
      ∃ e, Expr.parse s = .ok e ∧ e.isCalculated = false := by
    rw [← Except.error.injEq, ← hf, text_eq_complexExpression_iff c ability h]
    exact and_iff_right rfl
  rw [← hcomplex]
  rcases fault_of_text c ability h hf with ⟨e, rfl⟩ | rfl | hs
  · exact ⟨nofun, nofun, nofun, nofun, nofun⟩
  · exact ⟨nofun, nofun, nofun, fun _ => rfl, fun _ => rfl⟩
  · have hne : ∀ g : Fault, g.isOfText = true → f ≠ g := by
      rintro g hg rfl
      exact absurd (hs.symm.trans hg) nofun
    rw [Fault.severity_of_isOfText hs]
    exact ⟨fun _ => hne _ rfl, fun _ => hne _ rfl, fun _ => hne _ rfl, nofun,
      fun he => absurd he (hne _ rfl)⟩

end

/-- An ability whose first effect is given by a text that is no list of numbers. -/
def unreadableBurn : Ability :=
  .ofRecords "SonaQ" { SpellSheet.empty with burns := [none, some "ten"] } ⟨[], []⟩

/-- A champion without abilities of its own. -/
def solitary : Champion := ⟨.empty, "Sona", "sona", "Mana", ⟨.empty⟩, []⟩

theorem text_skips_by_text_burn :
    afterReferenceStart? "e1*2".toList = none ∧ afterReferenceStart? "e1*e1".toList = none ∧
      (∃ f, (ofText "e1*2").text solitary unreadableBurn = .error f ∧ f.severity ≠ .skip) ∧
      (ofText "e1*e1").text solitary unreadableBurn = .error (.complexExpression "e1*e1") := by
  have h : afterReferenceStart? "e1*2".toList = none := by decide
  have h' : afterReferenceStart? "e1*e1".toList = none := by decide
  have hcount : ((Expr.parse "e1*2").toOption.map fun e => (e.isSimple, e.nameCount))
      = some (true, 1) := by decide +kernel
  have hcount' : ((Expr.parse "e1*e1").toOption.map fun e => (e.isSimple, e.nameCount))
      = some (true, 2) := by decide +kernel
  have hfails : ((ofText "e1*2").text solitary unreadableBurn).toBool = false := by
    decide +kernel
  obtain ⟨f, hf⟩ := exists_eq_error_of_toBool hfails
  obtain ⟨-, -, hfault⟩ := text_skips_by_text solitary unreadableBurn h
  obtain ⟨-, hcomplex, -⟩ := text_skips_by_text solitary unreadableBurn h'
  refine ⟨h, h', ⟨_, hf, fun hskip => ?_⟩, (hcomplex _).2 ⟨rfl, ?_⟩⟩
  · obtain ⟨e, hp, hc⟩ := (hfault _ hf).2.2.2.1 hskip
    rw [hp] at hcount
    obtain ⟨hs, hn⟩ := Prod.mk.inj (Option.some.inj hcount)
    rcases hc with hc | hc
    · exact absurd (hs.symm.trans hc) nofun
    · exact hc hn
  · obtain ⟨e, hp, hc⟩ := Option.map_eq_some_iff.1 hcount'
    refine ⟨e, toOption_eq_some_iff.1 hp, .inr ?_⟩
    rw [(Prod.mk.inj hc).2]
    decide

end Request

end SpellText
