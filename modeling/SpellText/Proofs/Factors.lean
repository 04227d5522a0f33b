import SpellText.Ability
import SpellText.Proofs.OneName
import SpellText.Proofs.PartSums

/-!
# The order of factors

A product asks its right factor first whether it is a single number, and then multiplies the
left one by it. The order of the factors matters in one case only : both are single numbers,
under different labels (`Amount.AreApart`). The product then stands under the label of the left
factor (`times_ofTerm`), and in all other cases both products are the same
(`Amount.times_comm_iff`).

So the two parts of a product may change places anywhere in a formula, and the factors
anywhere in an expression, as long as their amounts are not apart (`Part.Turned`,
`Expr.Turned`). In the expressions of placeholders they never are : whatever a name stands for
has a flat part, and so has everything that is calculated from it (`HasFlat`). In formulas they
can be : a part that scales with a stat has no flat part, and the product of a ratio and a
number is an amount of the stat or a flat one, depending on which of them comes first.
-/

namespace SpellText

/-! ## Two factors -/

namespace Amount

variable {a b : Amount}

/-- Both amounts are single numbers, but not under the same label. -/
def AreApart (a b : Amount) : Prop :=
  ∃ l l' x y, l ≠ l' ∧ a = ofTerm l [x] ∧ b = ofTerm l' [y]

/-- A single number stands under one label. -/
theorem scalar?_eq_some_iff {x : Float} : a.scalar? = some x ↔ ∃ l, a = ofTerm l [x] := by
  constructor
  · intro h
    unfold scalar? at h
    split at h
    · next l y he =>
      cases h
      exact ⟨l, congrArg Amount.mk (Table.ext he)⟩
    · cases h
  · rintro ⟨l, rfl⟩
    rfl

/-- Of two single numbers, the product stands under the label of the left one. -/
theorem times_ofTerm (l l' : String) (x y : Float) :
    (ofTerm l [x]).times (ofTerm l' [y]) = .ok (ofTerm l [x * y]) := rfl

theorem ofTerm_inj {l l' : String} {cs ds : List Float} :
    ofTerm l cs = ofTerm l' ds ↔ l = l' ∧ cs = ds := by
  simp [ofTerm, Table.single]

/-- Two products are the same in either order if and only if their factors are not single
numbers under different labels. -/
theorem times_comm_iff : a.times b = b.times a ↔ ¬ AreApart a b := by
  constructor
  · rintro h ⟨l, l', x, y, hl, rfl, rfl⟩
    rw [times_ofTerm, times_ofTerm] at h
    exact hl (ofTerm_inj.1 (Except.ok.inj h)).1
  · intro h
    cases ha : a.scalar? with
    | none => cases hb : b.scalar? <;> simp only [times, ha, hb]
    | some x =>
      cases hb : b.scalar? with
      | none => simp only [times, ha, hb]
      | some y =>
        obtain ⟨l, rfl⟩ := scalar?_eq_some_iff.1 ha
        obtain ⟨l', rfl⟩ := scalar?_eq_some_iff.1 hb
        obtain rfl : l = l' := by
          by_contra hl
          exact h ⟨l, l', x, y, hl, rfl, rfl⟩
        rw [times_ofTerm, times_ofTerm, Doubles.mul_comm]

/-- A product fails in both orders or in none. -/
theorem times_cases (a b : Amount) :
    a.times b = .error .nonScalarProduct ∧ b.times a = .error .nonScalarProduct ∨
      ∃ c d, a.times b = .ok c ∧ b.times a = .ok d := by
  unfold times
  cases ha : a.scalar? <;> cases hb : b.scalar?
  · exact .inl ⟨rfl, rfl⟩
  · exact .inr ⟨_, _, rfl, rfl⟩
  · exact .inr ⟨_, _, rfl, rfl⟩
  · exact .inr ⟨_, _, rfl, rfl⟩

/-- Two calculations may change places in a product : what they come to is not apart. -/
def MayTurn (x y : Except Fault Amount) : Prop :=
  ∀ a b, x = .ok a → y = .ok b → ¬ AreApart a b

/-- Factors that may be turned have a product in either order. -/
theorem MayTurn.exists_times_iff {x y : Except Fault Amount} (h : MayTurn x y) {c : Amount} :
    (∃ a b, x = .ok a ∧ y = .ok b ∧ a.times b = .ok c) ↔
      ∃ b a, y = .ok b ∧ x = .ok a ∧ b.times a = .ok c := by
  constructor
  · rintro ⟨a, b, ha, hb, hc⟩
    exact ⟨b, a, hb, ha, (times_comm_iff.2 (h a b ha hb)).symm.trans hc⟩
  · rintro ⟨b, a, hb, ha, hc⟩
    exact ⟨a, b, ha, hb, (times_comm_iff.2 (h a b ha hb)).trans hc⟩

/-! ## Flat parts -/

/-- The amount has a flat part. -/
def HasFlat (a : Amount) : Prop := flatLabel ∈ a.labels

theorem hasFlat_ofRanks (cs : List Float) : HasFlat (ofRanks cs) := List.mem_singleton_self _

theorem HasFlat.mapTerms (h : HasFlat a) (f : List Float → List Float) :
    HasFlat (a.mapTerms f) := by
  rwa [HasFlat, labels_mapTerms]

theorem HasFlat.combine (h : HasFlat a) (sign : Float) (b : Amount) :
    HasFlat (combine sign a b) := by
  rw [HasFlat, (isCombined_combine sign a b).labels]
  exact List.mem_append_left _ h

/-- Products of amounts with a flat part have one. -/
theorem HasFlat.of_times {c : Amount} (ha : HasFlat a) (hb : HasFlat b) (h : a.times b = .ok c) :
    HasFlat c := by
  unfold times at h
  split at h
  · cases h
    exact ha.mapTerms _
  · cases h
    exact hb.mapTerms _
  · cases h

theorem HasFlat.of_dividedBy {c : Amount} (ha : HasFlat a) (h : a.dividedBy b = .ok c) :
    HasFlat c := by
  unfold dividedBy at h
  split at h
  · cases h
  · split at h
    · cases h
    · cases h
      exact ha.mapTerms _

theorem HasFlat.sign (h : HasFlat a) (sign : Expr.Sign) : HasFlat (sign.apply a) := by
  cases sign with
  | plus => exact h
  | minus => exact h.mapTerms _

/-- Operations on amounts with a flat part give such. -/
theorem HasFlat.of_result {c : Amount} {op : Expr.Op} (ha : HasFlat a) (hb : HasFlat b)
    (h : op.result? a b = some (.ok c)) : HasFlat c := by
  cases op with
  | add =>
    cases h
    exact ha.combine 1.0 b
  | sub =>
    cases h
    exact ha.combine (-1.0) b
  | mul => exact ha.of_times hb (Option.some.inj h)
  | div => exact ha.of_dividedBy (Option.some.inj h)
  | _ => cases h

/-- Single numbers with a flat part have nothing else. -/
theorem HasFlat.not_areApart (ha : HasFlat a) (hb : HasFlat b) : ¬ AreApart a b := by
  rintro ⟨l, l', x, y, hl, rfl, rfl⟩
  exact hl ((List.mem_singleton.1 ha).symm.trans (List.mem_singleton.1 hb))

end Amount

/-! ## Products in formulas -/

namespace Formula

variable {lookup : Lookup}

section

variable (lookup)

mutual

/-- The parts differ in the order of the two parts of products only. -/
inductive Part.Turned : Part → Part → Prop
  | same (p : Part) : Part.Turned p p
  | product {p q p' q' : Part} : Part.Turned p p' → Part.Turned q q' →
    Part.Turned (.product p q) (.product p' q')
  | turned {p q p' q' : Part} : Amount.MayTurn (p.evaluate lookup) (q.evaluate lookup) →
    Part.Turned p p' → Part.Turned q q' → Part.Turned (.product p q) (.product q' p')
  | sum {ps ps' : List Part} : AllTurned ps ps' → Part.Turned (.sum ps) (.sum ps')

/-- The parts of two lists differ in this way, one by one. -/
inductive AllTurned : List Part → List Part → Prop
  | nil : AllTurned [] []
  | cons {p p' : Part} {ps ps' : List Part} : Part.Turned p p' → AllTurned ps ps' →
    AllTurned (p :: ps) (p' :: ps')

end

end

mutual

/-- A part with turned factors has the same amount. -/
theorem Part.Turned.evaluate_eq_ok_iff {p p' : Part} {c : Amount} :
    Part.Turned lookup p p' → (p.evaluate lookup = .ok c ↔ p'.evaluate lookup = .ok c)
  | .same _ => Iff.rfl
  | .product hp hq => by
    simp only [evaluate_product_eq_ok, hp.evaluate_eq_ok_iff, hq.evaluate_eq_ok_iff]
  | .turned h hp hq => by
    rw [evaluate_product_eq_ok, h.exists_times_iff]
    simp only [evaluate_product_eq_ok, hp.evaluate_eq_ok_iff, hq.evaluate_eq_ok_iff]
  | .sum h => h.sumParts_eq_ok_iff

/-- Parts with turned factors have the same sum. -/
theorem AllTurned.sumParts_eq_ok_iff {ps ps' : List Part} {total c : Amount} :
    AllTurned lookup ps ps' →
      (sumParts lookup total ps = .ok c ↔ sumParts lookup total ps' = .ok c)
  | .nil => Iff.rfl
  | .cons hp hps => by
    simp only [sumParts_cons_eq_ok, hp.evaluate_eq_ok_iff, hps.sumParts_eq_ok_iff]

end

/-- A formula has a flat part, whatever its parts are. -/
theorem hasFlat_of_evaluate {f : Formula} {c : Amount} (h : f.evaluate lookup = .ok c) :
    c.HasFlat := by
  obtain ⟨as, -, rfl⟩ := sumParts_eq_ok_iff.1 h
  rw [Amount.HasFlat, (Amount.isTotal_foldl_add as).labels]
  exact List.mem_cons_self

end Formula

/-! ## Products in expressions -/

namespace Ability

/-- What a name stands for has a flat part. -/
theorem hasFlat_of_amount {a : Ability} {stats : BaseStats} {name : String} {c : Amount}
    (h : a.amount stats name = .ok c) : c.HasFlat := by
  rw [amount, formulaLimit, amountWithin, amountWith] at h
  split at h
  · obtain ⟨cs, -, rfl⟩ := map_eq_ok.1 h
    exact Amount.hasFlat_ofRanks cs
  · exact Formula.hasFlat_of_evaluate h
  · cases h

end Ability

namespace Expr

variable {lookup : Formula.Lookup}

section

variable (lookup)

/-- The expressions differ in the order of the factors of products only. -/
inductive Turned : Expr → Expr → Prop
  | same (e : Expr) : Turned e e
  | signed (sign : Sign) {e e' : Expr} : Turned e e' → Turned (signed sign e) (signed sign e')
  | binary (op : Op) {l r l' r' : Expr} : Turned l l' → Turned r r' →
    Turned (binary op l r) (binary op l' r')
  | turned {l r l' r' : Expr} : Amount.MayTurn (l.evaluate lookup) (r.evaluate lookup) →
    Turned l l' → Turned r r' → Turned (binary .mul l r) (binary .mul r' l')

end

/-- A product has an amount if both sides have one and these can be multiplied. -/
theorem evaluate_mul_eq_ok {l r : Expr} {c : Amount} :
    (binary .mul l r).evaluate lookup = .ok c ↔
      ∃ a b, l.evaluate lookup = .ok a ∧ r.evaluate lookup = .ok b ∧ a.times b = .ok c := by
  simp only [evaluate_binary_eq_ok, Op.result?, Option.some_inj]

/-- An expression with turned factors has the same amount. -/
theorem Turned.evaluate_eq_ok_iff {e e' : Expr} (h : Turned lookup e e') :
    ∀ {c}, e.evaluate lookup = .ok c ↔ e'.evaluate lookup = .ok c := by
  induction h with
  | same e => exact Iff.rfl
  | signed sign _ ih =>
    intro c
    simp only [evaluate_signed_eq_ok, ih]
  | binary op _ _ ihl ihr =>
    intro c
    simp only [evaluate_binary_eq_ok, ihl, ihr]
  | turned h _ _ ihl ihr =>
    intro c
    rw [evaluate_mul_eq_ok, h.exists_times_iff]
    simp only [evaluate_mul_eq_ok, ihl, ihr]

/-- If all names stand for amounts with a flat part, so does every expression. -/
theorem hasFlat_of_evaluate (hlookup : ∀ s c, lookup s = .ok c → c.HasFlat) :
    ∀ {e : Expr} {c : Amount}, e.evaluate lookup = .ok c → c.HasFlat
  | number x, c, h => by
    obtain rfl : Amount.ofNumber x = c := Except.ok.inj h
    exact Amount.hasFlat_ofRanks [x]
  | name s, c, h => hlookup s c h
  | signed sign e, c, h => by
    obtain ⟨a, ha, rfl⟩ := evaluate_signed_eq_ok.1 h
    exact (hasFlat_of_evaluate hlookup ha).sign sign
  | binary op l r, c, h => by
    obtain ⟨a, b, ha, hb, hc⟩ := evaluate_binary_eq_ok.1 h
    exact (hasFlat_of_evaluate hlookup ha).of_result (hasFlat_of_evaluate hlookup hb) hc

/-- Over the numbers of an ability, all factors may change places. -/
theorem mayTurn_ability (a : Ability) (stats : BaseStats) (l r : Expr) :
    Amount.MayTurn (l.evaluate (a.amount stats)) (r.evaluate (a.amount stats)) :=
  fun _ _ hl hr =>
    (hasFlat_of_evaluate (fun _ _ => Ability.hasFlat_of_amount) hl).not_areApart
      (hasFlat_of_evaluate (fun _ _ => Ability.hasFlat_of_amount) hr)

end Expr

/-! ## The order of factors -/

/-- Two products fail together. If they do not, they are the same unless both factors are single
numbers under different labels; then both are the product of the numbers, each under the label
of its left factor. So factors that are not apart may change places anywhere in a formula or an
expression without a change of its amount, and in an expression over the numbers of an ability
no factors are apart. -/
theorem products_turned :
    (∀ a b : Amount,
      a.times b = .error .nonScalarProduct ∧ b.times a = .error .nonScalarProduct ∨
        ∃ c d, a.times b = .ok c ∧ b.times a = .ok d ∧ (c = d ↔ ¬ a.AreApart b) ∧
          ∀ l l' x y, a = .ofTerm l [x] → b = .ofTerm l' [y] →
            c = .ofTerm l [x * y] ∧ d = .ofTerm l' [x * y]) ∧
      (∀ lookup ps ps', Formula.AllTurned lookup ps ps' →
        ∀ c, Formula.evaluate lookup ⟨ps⟩ = .ok c ↔ Formula.evaluate lookup ⟨ps'⟩ = .ok c) ∧
      (∀ lookup e e', Expr.Turned lookup e e' →
        ∀ c, e.evaluate lookup = .ok c ↔ e'.evaluate lookup = .ok c) ∧
      ∀ (ability : Ability) (stats : BaseStats) (l r : Expr),
        Amount.MayTurn (l.evaluate (ability.amount stats)) (r.evaluate (ability.amount stats)) := by
  refine ⟨fun a b => ?_, fun _ _ _ h _ => h.sumParts_eq_ok_iff, fun _ _ _ h _ =>
    h.evaluate_eq_ok_iff, Expr.mayTurn_ability⟩
  rcases Amount.times_cases a b with h | ⟨c, d, hc, hd⟩
  · exact .inl h
  · refine .inr ⟨c, d, hc, hd, ?_, ?_⟩
    · rw [← Amount.times_comm_iff, hc, hd, Except.ok.injEq]
    · rintro l l' x y rfl rfl
      rw [Amount.times_ofTerm] at hc hd
      exact ⟨(Except.ok.inj hc).symm, (Except.ok.inj hd).symm.trans (by rw [Doubles.mul_comm])⟩

/-- The share of a stat and a number are apart; the ranks under a name and a number are not. -/
theorem products_turned_ranks :
    (∃ c d, (Amount.ofTerm "AP" [0.5]).times (.ofNumber 2.0) = .ok c ∧
        (Amount.ofNumber 2.0).times (.ofTerm "AP" [0.5]) = .ok d ∧
        c = .ofTerm "AP" [0.5 * 2.0] ∧ d = .ofTerm Amount.flatLabel [0.5 * 2.0]) ∧
      (∃ c,
        Formula.evaluate Formula.ratioLookup ⟨[.product (.named "Base") (.number 2.0)]⟩ = .ok c ∧
        Formula.evaluate Formula.ratioLookup ⟨[.product (.number 2.0) (.named "Base")]⟩ = .ok c) ∧
      ∃ c, (Expr.binary .mul (.name "Base") (.number 2.0)).evaluate Formula.ratioLookup = .ok c ∧
        (Expr.binary .mul (.number 2.0) (.name "Base")).evaluate Formula.ratioLookup = .ok c := by
  obtain ⟨htimes, hparts, hexprs, -⟩ := products_turned
  have hturn : Amount.MayTurn (.ok (.ofRanks [40.0, 65.0, 90.0])) (.ok (.ofNumber 2.0)) := by
    rintro _ _ ⟨⟩ ⟨⟩
    exact (Amount.hasFlat_ofRanks _).not_areApart (Amount.hasFlat_ofRanks _)
  have hformula : Formula.AllTurned Formula.ratioLookup
      [.product (.named "Base") (.number 2.0)] [.product (.number 2.0) (.named "Base")] :=
    .cons (.turned hturn (.same _) (.same _)) .nil
  have hexpr : Expr.Turned Formula.ratioLookup
      (.binary .mul (.name "Base") (.number 2.0)) (.binary .mul (.number 2.0) (.name "Base")) :=
    .turned hturn (.same _) (.same _)
  refine ⟨?_, ⟨_, rfl, (hparts _ _ _ hformula _).1 rfl⟩, ⟨_, rfl, (hexprs _ _ _ hexpr _).1 rfl⟩⟩
  obtain ⟨h, -⟩ | ⟨c, d, hc, hd, -, heq⟩ := htimes (.ofTerm "AP" [0.5]) (.ofNumber 2.0)
  · cases h
  · exact ⟨c, d, hc, hd, heq "AP" Amount.flatLabel 0.5 2.0 rfl rfl⟩

/-- A ratio of a stat and a number are single numbers under different labels. -/
theorem not_products_same_labels :
    ¬ ∀ a b : Amount,
      a.times b = .error .nonScalarProduct ∧ b.times a = .error .nonScalarProduct ∨
        ∃ c d, a.times b = .ok c ∧ b.times a = .ok d ∧
          (∀ label, label ∈ c.labels ↔ label ∈ d.labels) ∧
          ∀ label j, c.coefficient? label j = d.coefficient? label j := by
  intro h
  rcases h (.ofTerm "AP" [0.5]) (.ofNumber 2.0) with ⟨h, -⟩ | ⟨c, d, hc, hd, hlabels, -⟩
  · cases h
  · cases hc
    cases hd
    have hap : "AP" ∈ (Amount.ofTerm Amount.flatLabel [2.0 * 0.5]).labels :=
      (hlabels "AP").1 (List.mem_singleton_self _)
    exact absurd (List.mem_singleton.1 hap) (by decide)

end SpellText
