import SpellText.Proofs.Doubles
import SpellText.Proofs.RankArithmetic
import SpellText.Proofs.Strictness

/-!
# Sums of parts

A formula is the sum of its parts, rank by rank : `Formula.evaluate_rankwise`. It has an
amount if and only if every part has one, and else the fault of the first part from the
left that has none (`sumParts_eq_ok_iff`, `sumParts_eq_error_iff`). The same holds of a sum
inside of a formula.

What a list of amounts adds up to is `Amount.IsTotal` : the labels in the order in which
they come first, behind the one of the flat part; the length of the longest amount; and at
every rank the coefficients of those amounts that have the label, added from left to right
(`addedTo`). The flat part starts with zero, the other terms start with the first
coefficient there is.

One sum is `coefficient?_add` and `labels_add`; the fold over all amounts goes by induction
on the list, with any amount to start from.
-/

namespace SpellText

namespace Amount

open Ranks (atRank)

/-! ## Coefficients of several amounts -/

/-- The coefficient at rank `j` under a label, where there is such a term. -/
def coefficient? (a : Amount) (label : String) (j : Nat) : Option Float :=
  (a.term? label).map fun cs => atRank cs j

/-- The coefficients at rank `j` of those amounts that have the label. -/
def coefficients (as : List Amount) (label : String) (j : Nat) : List Float :=
  as.filterMap fun a => a.coefficient? label j

/-- Numbers added from left to right to a first one. Where there is none to start with, the
first of them is. -/
def addedTo : Option Float → List Float → Option Float
  | x, [] => x
  | none, y :: ys => addedTo (some y) ys
  | some x, y :: ys => addedTo (some (x + y)) ys

theorem addedTo_append (x : Option Float) (ys zs : List Float) :
    addedTo x (ys ++ zs) = addedTo (addedTo x ys) zs := by
  induction ys generalizing x with
  | nil => cases x <;> rfl
  | cons y ys ih => cases x <;> exact ih _

/-- What the amounts add up to, from left to right and starting with zero. -/
structure IsTotal (as : List Amount) (c : Amount) : Prop where
  labels : c.labels = flatLabel :: ((as.flatMap labels).filter (· ≠ flatLabel)).eraseDups
  distinct : c.labels.Nodup
  length : c.length = (as.map length).foldr max 1
  coefficient : ∀ label j, c.coefficient? label j =
    addedTo (if label = flatLabel then some 0.0 else none) (coefficients as label j)

/-! ## One sum -/

/-- The coefficients of both sides are added, and that of one side alone stays. -/
theorem coefficient?_add (a b : Amount) (label : String) (j : Nat) :
    (a + b).coefficient? label j
      = addedTo (a.coefficient? label j) (b.coefficient? label j).toList := by
  show (combine 1.0 a b).coefficient? label j = _
  cases hb : b.term? label with
  | none =>
    rw [coefficient?, term?_combine_of_notMem a (term?_eq_none_iff.1 hb), coefficient?,
      coefficient?, hb]
    cases a.term? label <;> rfl
  | some ys =>
    have hone : ys.map (· * 1.0) = ys :=
      (List.map_congr_left fun y _ => Doubles.mul_one y).trans (List.map_id' ys)
    rw [coefficient?, term?_combine_of_term? a hb, hone, coefficient?, coefficient?, hb]
    cases a.term? label with
    | none => rfl
    | some xs => exact congrArg some (Ranks.atRank_add xs ys j)

/-- New labels come behind the others. -/
theorem labels_add (a b : Amount) :
    (a + b).labels = a.labels ++ b.labels.filter (· ∉ a.labels) :=
  labels_addTerms 1.0 a b.terms.distinct

/-! ## All sums -/

/-- The coefficient of a sum is the sum of the coefficients, from left to right. -/
theorem coefficient?_foldl_add (as : List Amount) (label : String) (j : Nat) (t : Amount) :
    (as.foldl (· + ·) t).coefficient? label j
      = addedTo (t.coefficient? label j) (coefficients as label j) := by
  induction as generalizing t with
  | nil => cases h : t.coefficient? label j <;> simp [coefficients, addedTo, h]
  | cons a as ih =>
    have hcons : coefficients (a :: as) label j
        = (a.coefficient? label j).toList ++ coefficients as label j := by
      rw [coefficients, List.filterMap_cons]
      cases a.coefficient? label j <;> rfl
    rw [List.foldl_cons, ih, coefficient?_add, hcons, addedTo_append]

theorem length_foldl_add (as : List Amount) (t : Amount) :
    (as.foldl (· + ·) t).length = max t.length ((as.map length).foldr max 1) := by
  induction as generalizing t with
  | nil => exact (Nat.max_eq_left (one_le_length t)).symm
  | cons a as ih =>
    rw [List.foldl_cons, ih, List.map_cons, List.foldr_cons, ← Nat.max_assoc]
    exact congrArg (max · _) (length_combine 1.0 t a)

theorem eraseDups_of_nodup : ∀ {xs : List String}, xs.Nodup → xs.eraseDups = xs
  | [], _ => rfl
  | x :: xs, h => by
    obtain ⟨hx, hxs⟩ := List.nodup_cons.1 h
    have hf : xs.filter (fun y => !y == x) = xs := List.filter_eq_self.2 fun y hy => by
      have : y ≠ x := fun hyx => hx (hyx ▸ hy)
      simpa using this
    rw [List.eraseDups_cons, hf, eraseDups_of_nodup hxs]

/-- A sum has the labels of its terms in the order of their first occurrence. -/
theorem labels_foldl_add (as : List Amount) (t : Amount) :
    (as.foldl (· + ·) t).labels
      = t.labels ++ ((as.flatMap labels).filter (· ∉ t.labels)).eraseDups := by
  induction as generalizing t with
  | nil => simp
  | cons a as ih =>
    have hnew : (a.labels.filter (· ∉ t.labels)).Nodup := a.terms.distinct.filter _
    -- What is new to the sum is new to both sides of it.
    have hrest : (as.flatMap labels).filter (· ∉ (t + a).labels)
        = ((as.flatMap labels).filter (· ∉ t.labels)).removeAll
            (a.labels.filter (· ∉ t.labels)) := by
      rw [List.removeAll, List.filter_filter]
      refine List.filter_congr fun l _ => ?_
      by_cases ht : l ∈ t.labels <;> simp [labels_add, ht]
    rw [List.foldl_cons, ih, hrest, labels_add, List.append_assoc, List.flatMap_cons,
      List.filter_append, List.eraseDups_append, eraseDups_of_nodup hnew]

/-- Adding amounts one after the other gives their total. -/
theorem isTotal_foldl_add (as : List Amount) : IsTotal as (as.foldl (· + ·) zero) where
  labels := by
    rw [labels_foldl_add]
    show [flatLabel] ++ _ = _
    simp [zero, ofNumber, ofRanks, ofTerm, Amount.labels, Table.single, Table.keys]
  distinct := (as.foldl (· + ·) zero).terms.distinct
  length := by
    rw [length_foldl_add]
    exact Nat.max_eq_right (foldr_max_le_iff.1 (Nat.le_refl _)).1
  coefficient label j := by
    rw [coefficient?_foldl_add]
    congr 1
    by_cases h : label = flatLabel
    · subst h
      rw [if_pos rfl]
      cases j <;> rfl
    · have hz : zero.term? label = none :=
        term?_eq_none_iff.2 fun hm => h (List.mem_singleton.1 hm)
      rw [if_neg h, coefficient?, hz]
      rfl

end Amount

namespace Formula

variable {lookup : Lookup}

/-! ## Amounts of parts -/

/-- Every part has its amount in the list, in order. -/
def HaveAmounts (lookup : Lookup) (parts : List Part) (as : List Amount) : Prop :=
  List.Forall₂ (fun p a => p.evaluate lookup = .ok a) parts as

/-- The first part from the left without an amount has the fault. -/
def IsFirstFault (lookup : Lookup) (parts : List Part) (e : Fault) : Prop :=
  ∃ before p behind, parts = before ++ p :: behind ∧
    (∀ q ∈ before, ∃ a, q.evaluate lookup = .ok a) ∧ p.evaluate lookup = .error e

/-- Parts have amounts together if each of them has one. -/
theorem exists_haveAmounts_iff {parts : List Part} :
    (∃ as, HaveAmounts lookup parts as) ↔ ∀ p ∈ parts, ∃ a, p.evaluate lookup = .ok a := by
  induction parts with
  | nil => simp [HaveAmounts]
  | cons p parts ih =>
    rw [List.forall_mem_cons, ← ih]
    constructor
    · rintro ⟨_, _ | ⟨ha, has⟩⟩
      exact ⟨⟨_, ha⟩, _, has⟩
    · rintro ⟨⟨a, ha⟩, as, has⟩
      exact ⟨a :: as, .cons ha has⟩

/-- The first fault is that of the first part, or of the others if that has an amount. -/
theorem isFirstFault_cons {p : Part} {parts : List Part} {e : Fault} :
    IsFirstFault lookup (p :: parts) e ↔ p.evaluate lookup = .error e ∨
      (∃ a, p.evaluate lookup = .ok a) ∧ IsFirstFault lookup parts e := by
  constructor
  · rintro ⟨_ | ⟨q, before⟩, r, behind, hparts, hok, he⟩
    · obtain ⟨rfl, -⟩ := List.cons.inj hparts
      exact .inl he
    · obtain ⟨rfl, rfl⟩ := List.cons.inj hparts
      obtain ⟨hq, hok⟩ := List.forall_mem_cons.1 hok
      exact .inr ⟨hq, before, r, behind, rfl, hok, he⟩
  · rintro (he | ⟨ha, before, r, behind, rfl, hok, he⟩)
    · exact ⟨[], p, parts, rfl, nofun, he⟩
    · exact ⟨p :: before, r, behind, rfl, List.forall_mem_cons.2 ⟨ha, hok⟩, he⟩

/-- Parts are summed if all have amounts, to the sum of these. -/
theorem sumParts_eq_ok_iff {parts : List Part} {total c : Amount} :
    sumParts lookup total parts = .ok c ↔
      ∃ as, HaveAmounts lookup parts as ∧ as.foldl (· + ·) total = c := by
  induction parts generalizing total with
  | nil => simp [HaveAmounts, sumParts]
  | cons p parts ih =>
    rw [sumParts_cons_eq_ok]
    simp only [ih]
    constructor
    · rintro ⟨a, ha, as, has, rfl⟩
      exact ⟨a :: as, .cons ha has, rfl⟩
    · rintro ⟨_, _ | ⟨ha, has⟩, rfl⟩
      exact ⟨_, ha, _, has, rfl⟩

/-- Parts fail to be summed by their first fault. -/
theorem sumParts_eq_error_iff {parts : List Part} {total : Amount} {e : Fault} :
    sumParts lookup total parts = .error e ↔ IsFirstFault lookup parts e := by
  induction parts generalizing total with
  | nil => simp [IsFirstFault, sumParts]
  | cons p parts ih =>
    rw [isFirstFault_cons, sumParts]
    cases hp : p.evaluate lookup with
    | error f => simp [bind, Except.bind]
    | ok a => simpa [bind, Except.bind] using ih

/-! ## Amounts of formulas -/

/-- A formula has an amount if and only if all its parts have one, and it is what they add
up to; else it has the fault of the first part from the left that has none. A sum inside of
a formula does as well. -/
theorem evaluate_rankwise (lookup : Lookup) (parts : List Part) :
    (Part.sum parts).evaluate lookup = evaluate lookup ⟨parts⟩ ∧
      ((∃ c, evaluate lookup ⟨parts⟩ = .ok c) ↔ ∀ p ∈ parts, ∃ a, p.evaluate lookup = .ok a) ∧
      (∀ e, evaluate lookup ⟨parts⟩ = .error e ↔ IsFirstFault lookup parts e) ∧
      ∀ c, evaluate lookup ⟨parts⟩ = .ok c →
        ∃ as, HaveAmounts lookup parts as ∧ Amount.IsTotal as c := by
  refine ⟨rfl, ?_, fun e => sumParts_eq_error_iff, fun c h => ?_⟩
  · rw [← exists_haveAmounts_iff]
    simp only [evaluate, sumParts_eq_ok_iff]
    constructor
    · rintro ⟨_, as, has, -⟩
      exact ⟨as, has⟩
    · rintro ⟨as, has⟩
      exact ⟨_, as, has, rfl⟩
  · obtain ⟨as, has, rfl⟩ := sumParts_eq_ok_iff.1 h
    exact ⟨as, has, Amount.isTotal_foldl_add as⟩

/-- Three ranks under one name, and a single number under all others. -/
def ratioLookup (name : String) : Except Fault Amount :=
  .ok (if name = "Base" then .ofRanks [40.0, 65.0, 90.0] else .ofNumber 0.5)

/-- A base by rank, a share of a stat and a constant. -/
def ratioParts : List Part := [.named "Base", .stat "APRatio", .number 10.0]

theorem evaluate_rankwise_ratio :
    ∃ c, evaluate ratioLookup ⟨ratioParts⟩ = .ok c ∧ c.labels = ["", "AP"] ∧ c.length = 3 ∧
      c.coefficient? "" 7 = some 100.0 ∧ c.coefficient? "AP" 1 = some 0.5 := by
  have hlabel : scalingLabel "APRatio" = "AP" := by decide +kernel
  have hparts : HaveAmounts ratioLookup ratioParts
      [.ofRanks [40.0, 65.0, 90.0], .ofTerm "AP" [0.5], .ofNumber 10.0] :=
    .cons rfl (.cons (hlabel ▸ rfl) (.cons rfl .nil))
  obtain ⟨-, hok, -, htotal⟩ := evaluate_rankwise ratioLookup ratioParts
  obtain ⟨c, hc⟩ := hok.2 (exists_haveAmounts_iff.1 ⟨_, hparts⟩)
  obtain ⟨as, has, h⟩ := htotal c hc
  obtain rfl := List.right_unique_forall₂' (fun _ _ _ h h' => Except.ok.inj (h.symm.trans h'))
    hparts has
  refine ⟨c, hc, h.labels, h.length, (h.coefficient _ _).trans ?_, (h.coefficient _ _).trans ?_⟩
  · decide
  · decide

end Formula

end SpellText
