import Mathlib.Data.List.Chain
import Mathlib.Logic.Relation
import SpellText.Proofs.Derivations

/-!
# Formulas inside formulas

A formula refers to another one where a name in it means that one. The formulas
of an ability may refer to each other in any way, also in circles; the limit on
how many may be inside each other (`Ability.formulaLimit`) decides what becomes
of the names that lead there.

* A name has an amount within some levels only if no more formulas than that are
  nested in each other under it (`nestsWithin_of_ok`), and then none of them leads
  back to itself (`acc_of_ok`).
* Where no more are nested than there are levels, the limit makes no difference
  (`resolves_unlimited`).
* A name with an amount keeps it when the parts of formulas are written out in
  place of their names (`amountWithin_writtenOut`).

`Ability.amount_exact` puts this together for the limit that holds.
-/

namespace SpellText.Ability

open Formula (Part)
open Text (trimmed)
open Relation (ReflTransGen TransGen)

section

variable (a : Ability) (stats : BaseStats)

/-! ## Chains of formulas -/

/-- A name in the formula `f` means the formula `g`. -/
def References (f g : Formula) : Prop := ∃ name ∈ f.names, a.meaning stats name = .formula g

/-- The formulas are nested in each other, the outermost one under the name. -/
def Nested (name : String) : List Formula → Prop
  | [] => True
  | f :: fs => a.meaning stats name = .formula f ∧ (f :: fs).IsChain (a.References stats)

/-- At most `levels` formulas are nested in each other under the name. -/
def NestsWithin (levels : Nat) (name : String) : Prop :=
  ∀ fs, a.Nested stats name fs → fs.length ≤ levels

/-- A formula that is reached from the name can reach itself. -/
def ReachesCircle (name : String) : Prop :=
  ∃ f g, a.meaning stats name = .formula f ∧ ReflTransGen (a.References stats) f g ∧
    TransGen (a.References stats) g g

end

variable {a : Ability} {stats : BaseStats}

/-- A chain under a name in a formula goes on outwards with the formula. -/
theorem Nested.outwards {name inner : String} {f : Formula} {fs : List Formula}
    (hm : a.meaning stats name = .formula f) (hn : inner ∈ f.names)
    (h : a.Nested stats inner fs) : a.Nested stats name (f :: fs) := by
  refine ⟨hm, ?_⟩
  cases fs with
  | nil => exact .singleton f
  | cons g gs => exact .cons_cons ⟨inner, hn, h.1⟩ h.2

/-- Behind its outermost formula a chain begins under a name in that formula. -/
theorem Nested.inwards {name : String} {f g : Formula} {gs : List Formula}
    (h : a.Nested stats name (f :: g :: gs)) :
    ∃ inner ∈ f.names, a.Nested stats inner (g :: gs) := by
  obtain ⟨-, hc⟩ := h
  obtain ⟨⟨inner, hn, hm⟩, hc⟩ := List.isChain_cons_cons.1 hc
  exact ⟨inner, hn, hm, hc⟩

/-- A name in a formula nests within one level less than the formula. -/
theorem NestsWithin.inwards {levels : Nat} {name inner : String} {f : Formula}
    (h : a.NestsWithin stats (levels + 1) name) (hm : a.meaning stats name = .formula f)
    (hn : inner ∈ f.names) : a.NestsWithin stats levels inner := by
  intro fs hfs
  have := h _ (hfs.outwards hm hn)
  simpa using this

/-- Where nothing is nested under a name, it means no formula. -/
theorem NestsWithin.ne_formula {name : String} (h : a.NestsWithin stats 0 name) (f : Formula) :
    a.meaning stats name ≠ .formula f := by
  intro hm
  have := h [f] ⟨hm, .singleton f⟩
  simp at this

/-! ## Names with an amount -/

/-- Only what is no formula has an amount when no formula may be entered. -/
theorem ne_formula_of_ok {name : String} {c : Amount} (h : a.amountWithin stats 0 name = .ok c)
    (f : Formula) : a.meaning stats name ≠ .formula f := by
  intro hm
  rw [amountWithin_zero_of_formula hm] at h
  cases h

/-- Inside of a formula with an amount all names have an amount. -/
theorem ok_inwards {levels : Nat} {name inner : String} {f : Formula} {c : Amount}
    (h : a.amountWithin stats (levels + 1) name = .ok c) (hm : a.meaning stats name = .formula f)
    (hn : inner ∈ f.names) : ∃ d, a.amountWithin stats levels inner = .ok d := by
  rw [amountWithin_succ_of_formula hm] at h
  exact Formula.ok_of_mem_names h hn

/-- Under a name with an amount no more formulas are nested than there are levels. -/
theorem nestsWithin_of_ok : ∀ {levels : Nat} {name : String} {c : Amount},
    a.amountWithin stats levels name = .ok c → a.NestsWithin stats levels name := by
  intro levels
  induction levels with
  | zero =>
    intro name c h fs hfs
    cases fs with
    | nil => exact Nat.le_refl 0
    | cons f fs => exact absurd hfs.1 (ne_formula_of_ok h f)
  | succ levels ih =>
    intro name c h fs hfs
    match fs, hfs with
    | [], _ => exact Nat.zero_le _
    | [f], _ => exact Nat.succ_le_succ (Nat.zero_le _)
    | f :: g :: gs, hfs =>
      obtain ⟨inner, hn, hgs⟩ := hfs.inwards
      obtain ⟨d, hd⟩ := ok_inwards h hfs.1 hn
      exact Nat.succ_le_succ (ih hd _ hgs)

/-- From a formula with an amount references lead to an end. -/
theorem acc_of_ok : ∀ {levels : Nat} {name : String} {f : Formula} {c : Amount},
    a.amountWithin stats levels name = .ok c → a.meaning stats name = .formula f →
      Acc (fun g f => a.References stats f g) f := by
  intro levels
  induction levels with
  | zero =>
    intro name f c h hm
    exact absurd hm (ne_formula_of_ok h f)
  | succ levels ih =>
    intro name f c h hm
    refine .intro f fun g hg => ?_
    obtain ⟨inner, hn, hmg⟩ := hg
    obtain ⟨d, hd⟩ := ok_inwards h hm hn
    exact ih hd hmg

theorem not_rel_self_of_acc {α : Type} {r : α → α → Prop} {x : α} (h : Acc r x) : ¬ r x x := by
  induction h with
  | intro x _ ih => exact fun hx => ih x hx hx

/-- A name with an amount leads to no circle. -/
theorem not_reachesCircle_of_ok {levels : Nat} {name : String} {c : Amount}
    (h : a.amountWithin stats levels name = .ok c) : ¬ a.ReachesCircle stats name := by
  rintro ⟨f, g, hm, hfg, hgg⟩
  have hg : Acc (fun g f => a.References stats f g) g := by
    clear hgg
    induction hfg with
    | refl => exact acc_of_ok h hm
    | tail _ hs ih => exact ih.inv hs
  exact not_rel_self_of_acc hg.transGen (Relation.transGen_swap.2 hgg)

/-! ## Levels that suffice -/

/-- Where levels suffice for the formulas under a name, they are as good as none. -/
theorem resolves_unlimited : ∀ {levels depth : Nat} {name : String},
    a.NestsWithin stats levels name →
      a.Resolves stats none depth name (a.amountWithin stats levels name) := by
  intro levels
  induction levels with
  | zero =>
    intro depth name h
    exact resolves_of_ne_formula h.ne_formula
  | succ levels ih =>
    intro depth name h
    by_cases hm : ∃ f, a.meaning stats name = .formula f
    · obtain ⟨f, hm⟩ := hm
      rw [amountWithin_succ_of_formula hm]
      exact resolves_evaluate hm trivial fun n hn => ih (h.inwards hm hn)
    · exact resolves_of_ne_formula (not_exists.1 hm)

/-- One more level changes no amount. -/
theorem amountWithin_succ : ∀ {levels : Nat} {name : String} {c : Amount},
    a.amountWithin stats levels name = .ok c → a.amountWithin stats (levels + 1) name = .ok c := by
  intro levels
  induction levels with
  | zero =>
    intro name c h
    rw [← h]
    exact amountWithin_congr (ne_formula_of_ok h) _ _
  | succ levels ih =>
    intro name c h
    by_cases hm : ∃ f, a.meaning stats name = .formula f
    · obtain ⟨f, hm⟩ := hm
      rw [amountWithin_succ_of_formula hm] at h ⊢
      exact Formula.evaluate_mono (fun _ _ => ih) h
    · rw [← h]
      exact amountWithin_congr (not_exists.1 hm) _ _

/-! ## Formulas written out -/

section

variable (a : Ability) (stats : BaseStats)

mutual

/-- The second part is the first one, where the sum of a formula's parts may
have taken the place of a name that means the formula. -/
inductive WrittenOut : Part → Part → Prop
  | same (p : Part) : WrittenOut p p
  | named {name : String} {g : Formula} {p : Part} :
    a.meaning stats name = .formula g → WrittenOut (.sum g.parts) p → WrittenOut (.named name) p
  | product {left left' right right' : Part} :
    WrittenOut left left' → WrittenOut right right' →
      WrittenOut (.product left right) (.product left' right')
  | sum {parts parts' : List Part} :
    AllWrittenOut parts parts' → WrittenOut (.sum parts) (.sum parts')

/-- The parts of the second list are those of the first one, written out. -/
inductive AllWrittenOut : List Part → List Part → Prop
  | nil : AllWrittenOut [] []
  | cons {p p' : Part} {ps ps' : List Part} :
    WrittenOut p p' → AllWrittenOut ps ps' → AllWrittenOut (p :: ps) (p' :: ps')

end

/-- The table has the formulas of the ability under the same names, written out. -/
def IsWrittenOut (t : Table Formula) : Prop :=
  ∀ key, Option.Rel (fun f f' => a.AllWrittenOut stats f.parts f'.parts) (a.formulas.get? key)
    (t.get? key)

end

mutual

/-- What is written out keeps its amount where the names keep theirs and those of
formulas are the sums of their parts. -/
theorem WrittenOut.evaluate {lookup lookup' : Formula.Lookup}
    (hl : ∀ name c, lookup name = .ok c → lookup' name = .ok c)
    (hf : ∀ name g c, a.meaning stats name = .formula g → lookup name = .ok c →
      g.evaluate lookup = .ok c) :
    ∀ {p p' : Part} {c : Amount}, a.WrittenOut stats p p' → p.evaluate lookup = .ok c →
      p'.evaluate lookup' = .ok c
  | _, _, _, .same _, h => Part.evaluate_mono hl h
  | _, _, c, .named hm hp, h => hp.evaluate hl hf (hf _ _ c hm h)
  | _, _, _, .product hp hp', h => by
    obtain ⟨x, y, hx, hy, hc⟩ := Formula.evaluate_product_eq_ok.1 h
    exact Formula.evaluate_product_eq_ok.2
      ⟨x, y, hp.evaluate hl hf hx, hp'.evaluate hl hf hy, hc⟩
  | _, _, _, .sum hps, h => hps.sumParts hl hf h

/-- A sum of parts comes to the same with its parts written out. -/
theorem AllWrittenOut.sumParts {lookup lookup' : Formula.Lookup}
    (hl : ∀ name c, lookup name = .ok c → lookup' name = .ok c)
    (hf : ∀ name g c, a.meaning stats name = .formula g → lookup name = .ok c →
      g.evaluate lookup = .ok c) :
    ∀ {ps ps' : List Part} {total c : Amount}, a.AllWrittenOut stats ps ps' →
      Formula.sumParts lookup total ps = .ok c → Formula.sumParts lookup' total ps' = .ok c
  | _, _, _, _, .nil, h => h
  | _, _, _, _, .cons hp hps, h => by
    obtain ⟨x, hx, hs⟩ := Formula.sumParts_cons_eq_ok.1 h
    exact Formula.sumParts_cons_eq_ok.2 ⟨x, hp.evaluate hl hf hx, hps.sumParts hl hf hs⟩

end

/-- Under each name are two formulas of which one is the other written out, or none. -/
theorem IsWrittenOut.lookUp? {t : Table Formula} (ht : a.IsWrittenOut stats t) (lower : String) :
    Option.Rel (fun f f' => a.AllWrittenOut stats f.parts f'.parts) (lookUp? a.formulas lower)
      (lookUp? t lower) := by
  unfold Ability.lookUp?
  have h := ht lower
  revert h
  cases a.formulas.get? lower <;> cases t.get? lower <;> intro h
  · exact ht (Name.camelLower lower)
  · cases h
  · cases h
  · exact h

/-- With formulas written out a name means what it did, a formula written out
where it meant a formula. -/
theorem IsWrittenOut.meaning {t : Table Formula} (ht : a.IsWrittenOut stats t) (name : String) :
    (∃ f f', a.meaning stats name = .formula f ∧
      { a with formulas := t }.meaning stats name = .formula f' ∧
        a.AllWrittenOut stats f.parts f'.parts) ∨
    (∀ f, a.meaning stats name ≠ .formula f) ∧
      { a with formulas := t }.meaning stats name = a.meaning stats name := by
  unfold Ability.meaning
  generalize Text.lowercased (trimmed name) = lower
  have hrow : { a with formulas := t }.rankRow? lower = a.rankRow? lower := rfl
  have hf := ht.lookUp? lower
  revert hf
  dsimp only
  rw [hrow]
  -- Only where the name is none of those before the formulas does the table matter.
  split
  · exact fun _ => .inr ⟨fun _ => nofun, rfl⟩
  cases effectName? lower.toList with
  | some e => exact fun _ => .inr ⟨fun _ => nofun, rfl⟩
  | none =>
  cases a.rankRow? lower with
  | some ranks => exact fun _ => .inr ⟨fun _ => nofun, rfl⟩
  | none =>
  cases Ability.lookUp? a.values lower with
  | some ranks => exact fun _ => .inr ⟨fun _ => nofun, rfl⟩
  | none =>
  cases Ability.lookUp? a.formulas lower with
  | some f =>
    cases Ability.lookUp? t lower with
    | some f' =>
      intro hf
      cases hf with
      | some hf => exact .inl ⟨f, f', rfl, rfl, hf⟩
    | none => exact nofun
  | none =>
    cases Ability.lookUp? t lower with
    | some f' => exact nofun
    | none =>
      intro _
      refine .inr ⟨fun f => ?_, rfl⟩
      dsimp only
      cases stats.get? (Name.camelCase lower) <;> exact nofun

/-- The amount of a name that means no formula does not depend on formulas. -/
theorem amountWithin_withFormulas {t : Table Formula} {name : String}
    (hm : ∀ f, a.meaning stats name ≠ .formula f)
    (h : { a with formulas := t }.meaning stats name = a.meaning stats name) (levels : Nat) :
    { a with formulas := t }.amountWithin stats levels name = a.amountWithin stats levels name := by
  have hm' : ∀ f, { a with formulas := t }.meaning stats name ≠ .formula f := by
    rw [h]
    exact hm
  rw [amountWithin_congr hm levels 0, amountWithin_congr hm' levels 0, amountWithin, amountWithin,
    amountWith, amountWith, h]

/-- A name with an amount keeps it when formulas are written out. -/
theorem amountWithin_writtenOut {t : Table Formula} (ht : a.IsWrittenOut stats t) :
    ∀ {levels : Nat} {name : String} {c : Amount}, a.amountWithin stats levels name = .ok c →
      { a with formulas := t }.amountWithin stats levels name = .ok c := by
  intro levels
  induction levels with
  | zero =>
    intro name c h
    rcases ht.meaning name with ⟨f, _, hf, -, -⟩ | ⟨hm, hm'⟩
    · exact absurd hf (ne_formula_of_ok h f)
    · rw [amountWithin_withFormulas hm hm']
      exact h
  | succ levels ih =>
    intro name c h
    rcases ht.meaning name with ⟨f, f', hf, hf', hw⟩ | ⟨hm, hm'⟩
    · rw [amountWithin_succ_of_formula hf] at h
      rw [amountWithin_succ_of_formula hf']
      refine hw.sumParts (fun _ _ => ih) (fun inner g d hm hd => ?_) h
      cases levels with
      | zero => exact absurd hm (ne_formula_of_ok hd g)
      | succ levels =>
        rw [amountWithin_succ_of_formula hm] at hd
        exact Formula.evaluate_mono (fun _ _ => amountWithin_succ) hd
    · rw [amountWithin_withFormulas hm hm']
      exact h

/-! ## The limit that holds -/

/-- The amount of a name is the one result of its lookup within the limit.

* Where a formula that is reached from the name can reach itself, the amount is a
  fault.
* Where no more formulas than the limit are nested under the name, the lookup has
  the same one result without a limit, and it is not that they are nested too
  deeply.
* A name with an amount has the same one without a limit, and keeps it when
  formulas are written out. -/
theorem amount_exact (a : Ability) (stats : BaseStats) (name : String) :
    (∀ r, a.Resolves stats (some formulaLimit) 0 name r ↔ r = a.amount stats name) ∧
      (a.ReachesCircle stats name → ∃ e, a.amount stats name = .error e) ∧
      (a.NestsWithin stats formulaLimit name →
        (∀ r, a.Resolves stats none 0 name r ↔ r = a.amount stats name) ∧
          ∀ n limit, a.amount stats name ≠ .error (.formulaTooDeep n limit)) ∧
      ∀ c, a.amount stats name = .ok c →
        (∀ r, a.Resolves stats none 0 name r ↔ r = .ok c) ∧
          ∀ t, a.IsWrittenOut stats t → { a with formulas := t }.amount stats name = .ok c := by
  have hlim : ∀ r, a.NestsWithin stats formulaLimit name →
      (a.Resolves stats none 0 name r ↔ r = a.amount stats name) := by
    intro r hn
    have h : a.Resolves stats none 0 name (a.amount stats name) := resolves_unlimited hn
    exact h.iff_eq
  refine ⟨fun r => resolves_limited_iff, fun hc => ?_, fun hn => ⟨fun r => hlim r hn, ?_⟩,
    fun c h => ⟨fun r => ?_, fun t ht => amountWithin_writtenOut ht h⟩⟩
  · cases h : a.amount stats name with
    | ok c => exact absurd hc (not_reachesCircle_of_ok h)
    | error e => exact ⟨e, rfl⟩
  · exact ((hlim _ hn).2 rfl).ne_tooDeep
  · rw [hlim r (nestsWithin_of_ok h), h]

end SpellText.Ability
