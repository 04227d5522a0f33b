import SpellText.Ability
import SpellText.Proofs.Strictness

/-!
# Derivations of amounts

What the lookup of a name comes to, by rules that do not know in advance how
long it takes : `Resolves` holds of a name and a result where the lookup comes to
an end with it. A depth counts the formulas around the name, and a limit, if
there is one, says from which depth on no formula is entered any more.

* A lookup has one result at most (`Resolves.unique`).
* With a limit every lookup has a result, whatever the formulas refer to : it is
  the amount within what is left of the limit (`resolves_amountWithin`).
* Without a limit a lookup may go on for ever and then has none. No result is
  then the fault of formulas that are nested too deeply (`Resolves.ne_tooDeep`).
-/

namespace SpellText

open Text (trimmed)
open Formula (Part)

/-- A formula may be entered at the depth. -/
def Permits : Option Nat → Nat → Prop
  | none, _ => True
  | some limit, depth => depth < limit

namespace Ability

section

variable (a : Ability) (stats : BaseStats) (limit : Option Nat)

mutual

/-- The lookup of a name at a depth ends with a result. -/
inductive Resolves : Nat → String → Except Fault Amount → Prop
  | ranks {depth : Nat} {name : String} {cs : Except Fault (List Float)} :
    a.meaning stats name = .ranks cs → Resolves depth name (cs.map .ofRanks)
  | unknown {depth : Nat} {name : String} :
    a.meaning stats name = .unknown →
      Resolves depth name (.error (.unknownPlaceholder (trimmed name) a.name))
  | formula {depth : Nat} {name : String} {f : Formula} {r : Except Fault Amount} :
    a.meaning stats name = .formula f → Permits limit depth → Adds (depth + 1) .zero f.parts r →
      Resolves depth name r
  | tooDeep {depth : Nat} {name : String} {f : Formula} :
    a.meaning stats name = .formula f → ¬ Permits limit depth →
      Resolves depth name (.error (.formulaTooDeep (trimmed name) formulaLimit))

/-- The evaluation of a part ends with a result. -/
inductive Yields : Nat → Part → Except Fault Amount → Prop
  | named {depth : Nat} {name : String} {r : Except Fault Amount} :
    Resolves depth name r → Yields depth (.named name) r
  | stat {depth : Nat} {name : String} {r : Except Fault Amount} :
    Resolves depth name r → Yields depth (.stat name) (r.map (Formula.scaling name))
  | number {depth : Nat} {x : Float} : Yields depth (.number x) (.ok (.ofNumber x))
  | left {depth : Nat} {left right : Part} {e : Fault} :
    Yields depth left (.error e) → Yields depth (.product left right) (.error e)
  | right {depth : Nat} {left right : Part} {c : Amount} {e : Fault} :
    Yields depth left (.ok c) → Yields depth right (.error e) →
      Yields depth (.product left right) (.error e)
  | product {depth : Nat} {left right : Part} {c d : Amount} :
    Yields depth left (.ok c) → Yields depth right (.ok d) →
      Yields depth (.product left right) (c.times d)
  | sum {depth : Nat} {parts : List Part} {r : Except Fault Amount} :
    Adds depth .zero parts r → Yields depth (.sum parts) r
  | unsupported {depth : Nat} {kind : String} :
    Yields depth (.unsupported kind) (.error (.unsupportedPart kind))

/-- Adding the parts to a total ends with a result. -/
inductive Adds : Nat → Amount → List Part → Except Fault Amount → Prop
  | nil {depth : Nat} {total : Amount} : Adds depth total [] (.ok total)
  | fault {depth : Nat} {total : Amount} {part : Part} {rest : List Part} {e : Fault} :
    Yields depth part (.error e) → Adds depth total (part :: rest) (.error e)
  | cons {depth : Nat} {total c : Amount} {part : Part} {rest : List Part}
      {r : Except Fault Amount} :
    Yields depth part (.ok c) → Adds depth (total + c) rest r →
      Adds depth total (part :: rest) r

end

end

variable {a : Ability} {stats : BaseStats} {limit : Option Nat}

/-! ## One result at most -/

mutual

/-- A lookup has one result at most. -/
theorem Resolves.unique {depth : Nat} {name : String} {r r' : Except Fault Amount} :
    a.Resolves stats limit depth name r → a.Resolves stats limit depth name r' → r = r'
  | .ranks hm, h' => by
    cases h' with
    | ranks hm' => cases hm.symm.trans hm'; rfl
    | unknown hm' | formula hm' _ _ | tooDeep hm' _ => cases hm.symm.trans hm'
  | .unknown hm, h' => by
    cases h' with
    | unknown _ => rfl
    | ranks hm' | formula hm' _ _ | tooDeep hm' _ => cases hm.symm.trans hm'
  | .formula hm hl hs, h' => by
    cases h' with
    | formula hm' _ hs' =>
      cases hm.symm.trans hm'
      exact hs.unique hs'
    | tooDeep _ hl' => exact absurd hl hl'
    | ranks hm' | unknown hm' => cases hm.symm.trans hm'
  | .tooDeep hm hl, h' => by
    cases h' with
    | tooDeep _ _ => rfl
    | formula _ hl' _ => exact absurd hl' hl
    | ranks hm' | unknown hm' => cases hm.symm.trans hm'

/-- A part yields one result. -/
theorem Yields.unique {depth : Nat} {p : Part} {r r' : Except Fault Amount} :
    a.Yields stats limit depth p r → a.Yields stats limit depth p r' → r = r'
  | .named h, .named h' => h.unique h'
  | .stat h, .stat h' => by rw [h.unique h']
  | .number, .number => rfl
  | .left h, h' => by
    cases h' with
    | left hl => exact h.unique hl
    | right hl _ | product hl _ => cases h.unique hl
  | .right h hr, h' => by
    cases h' with
    | left hl => cases h.unique hl
    | right _ hr' => exact hr.unique hr'
    | product _ hr' => cases hr.unique hr'
  | .product h hr, h' => by
    cases h' with
    | left hl => cases h.unique hl
    | right _ hr' => cases hr.unique hr'
    | product hl hr' =>
      cases h.unique hl
      cases hr.unique hr'
      rfl
  | .sum h, .sum h' => h.unique h'
  | .unsupported, .unsupported => rfl

/-- A sum of parts comes to one result. -/
theorem Adds.unique {depth : Nat} {total : Amount} {parts : List Part}
    {r r' : Except Fault Amount} :
    a.Adds stats limit depth total parts r → a.Adds stats limit depth total parts r' → r = r'
  | .nil, .nil => rfl
  | .fault h, h' => by
    cases h' with
    | fault h' => exact h.unique h'
    | cons h' _ => cases h.unique h'
  | .cons h hs, h' => by
    cases h' with
    | fault h' => cases h.unique h'
    | cons h' hs' =>
      cases h.unique h'
      exact hs.unique hs'

end

/-- A result that a lookup has is the one it has. -/
theorem Resolves.iff_eq {depth : Nat} {name : String} {r r' : Except Fault Amount}
    (h : a.Resolves stats limit depth name r') :
    a.Resolves stats limit depth name r ↔ r = r' := by
  constructor
  · exact fun hr => hr.unique h
  · intro hr
    rw [hr]
    exact h

/-! ## A result within a limit -/

mutual

/-- A part yields its amount where every name in it resolves to its own. -/
theorem yields_evaluate {depth : Nat} {lookup : Formula.Lookup} : ∀ {p : Part},
    (∀ name ∈ p.names, a.Resolves stats limit depth name (lookup name)) →
      a.Yields stats limit depth p (p.evaluate lookup)
  | .named name, h => .named (h name List.mem_cons_self)
  | .stat name, h => .stat (h name List.mem_cons_self)
  | .number _, _ => .number
  | .product left right, h => by
    have hl := yields_evaluate (p := left) fun name hn => h name (List.mem_append_left _ hn)
    have hr := yields_evaluate (p := right) fun name hn => h name (List.mem_append_right _ hn)
    rw [Part.evaluate]
    cases hc : left.evaluate lookup with
    | error e =>
      rw [hc] at hl
      exact .left hl
    | ok c =>
      rw [hc] at hl
      cases hd : right.evaluate lookup with
      | error e =>
        rw [hd] at hr
        exact .right hl hr
      | ok d =>
        rw [hd] at hr
        exact .product hl hr
  | .sum _, h => .sum (adds_sumParts h)
  | .unsupported _, _ => .unsupported

/-- Parts add up as they are summed, if their names resolve as they are looked up. -/
theorem adds_sumParts {depth : Nat} {lookup : Formula.Lookup} :
    ∀ {parts : List Part} {total : Amount},
      (∀ name ∈ Formula.namesOfParts parts, a.Resolves stats limit depth name (lookup name)) →
        a.Adds stats limit depth total parts (Formula.sumParts lookup total parts)
  | [], _, _ => .nil
  | part :: rest, total, h => by
    have hp := yields_evaluate (p := part) fun name hn => h name (List.mem_append_left _ hn)
    rw [Formula.sumParts]
    cases hc : part.evaluate lookup with
    | error e =>
      rw [hc] at hp
      exact .fault hp
    | ok c =>
      rw [hc] at hp
      exact .cons hp (adds_sumParts fun name hn => h name (List.mem_append_right _ hn))

end

/-- A formula is entered and its parts are added. -/
theorem resolves_evaluate {depth : Nat} {name : String} {f : Formula} {lookup : Formula.Lookup}
    (hm : a.meaning stats name = .formula f) (hl : Permits limit depth)
    (h : ∀ n ∈ f.names, a.Resolves stats limit (depth + 1) n (lookup n)) :
    a.Resolves stats limit depth name (f.evaluate lookup) :=
  .formula hm hl (adds_sumParts h)

/-- What is no formula resolves to its amount at every depth. -/
theorem resolves_of_ne_formula {depth levels : Nat} {name : String}
    (hm : ∀ f, a.meaning stats name ≠ .formula f) :
    a.Resolves stats limit depth name (a.amountWithin stats levels name) := by
  rw [amountWithin_congr hm levels 0, amountWithin, amountWith]
  cases h : a.meaning stats name with
  | ranks cs => exact .ranks h
  | unknown => exact .unknown h
  | formula f => exact absurd h (hm f)

/-- With a limit every lookup ends, with the amount within the levels that are left. -/
theorem resolves_amountWithin {bound : Nat} : ∀ {levels depth : Nat} {name : String},
    depth + levels = bound →
      a.Resolves stats (some bound) depth name (a.amountWithin stats levels name) := by
  intro levels
  induction levels with
  | zero =>
    intro depth name hd
    by_cases hm : ∃ f, a.meaning stats name = .formula f
    · obtain ⟨f, hm⟩ := hm
      rw [amountWithin_zero_of_formula hm]
      exact .tooDeep hm (by simp only [Permits]; omega)
    · exact resolves_of_ne_formula (not_exists.1 hm)
  | succ levels ih =>
    intro depth name hd
    by_cases hm : ∃ f, a.meaning stats name = .formula f
    · obtain ⟨f, hm⟩ := hm
      rw [amountWithin_succ_of_formula hm]
      exact resolves_evaluate hm (by simp only [Permits]; omega) fun n _ => ih (by omega)
    · exact resolves_of_ne_formula (not_exists.1 hm)

/-- The amount of a name is the one result of its lookup within the limit. -/
theorem resolves_limited_iff {name : String} {r : Except Fault Amount} :
    a.Resolves stats (some formulaLimit) 0 name r ↔ r = a.amount stats name := by
  have hl : 0 + formulaLimit = formulaLimit := Nat.zero_add _
  have h : a.Resolves stats (some formulaLimit) 0 name (a.amount stats name) :=
    resolves_amountWithin hl
  exact h.iff_eq

/-! ## Results without a limit -/

/-- The ranks of an effect fail by a burn that cannot be read only. -/
theorem exists_burn_of_effectRanks {index : Nat} {e : Fault}
    (h : a.effectRanks index = .error e) : ∃ burn, e = .invalidEffectBurn burn := by
  unfold effectRanks at h
  split at h
  · cases h
  · split at h
    · split at h
      · cases h
      · cases h
        exact ⟨_, rfl⟩
    · cases h

theorem exists_burn_of_namedEffect {n : EffectName} {e : Fault}
    (h : a.namedEffect n = .error e) : ∃ burn, e = .invalidEffectBurn burn := by
  unfold namedEffect at h
  dsimp only at h
  split at h
  · exact exists_burn_of_effectRanks (map_eq_error.1 h)
  · cases h

/-- The only fault of a name that means ranks is a text of effect amounts. -/
theorem exists_burn_of_meaning {name : String} {e : Fault}
    (h : a.meaning stats name = .ranks (.error e)) : ∃ burn, e = .invalidEffectBurn burn := by
  unfold meaning at h
  dsimp only at h
  split at h
  · cases h
  · split at h
    · exact exists_burn_of_namedEffect (Meaning.ranks.inj h)
    · split at h
      · cases h
      · split at h
        · cases h
        · split at h
          · cases h
          · split at h <;> cases h

/-- The fault of a product is that neither side is a single number. -/
theorem eq_nonScalarProduct_of_times {c d : Amount} {e : Fault} (h : c.times d = .error e) :
    e = .nonScalarProduct := by
  unfold Amount.times at h
  split at h
  · cases h
  · cases h
  · cases h
    rfl

mutual

/-- Without a limit no result says that formulas are nested too deeply. -/
theorem Resolves.ne_tooDeep {depth : Nat} {name : String} {r : Except Fault Amount} :
    a.Resolves stats none depth name r → ∀ n l, r ≠ .error (.formulaTooDeep n l)
  | .ranks hm, n, l, h => by
    rw [map_eq_error.1 h] at hm
    obtain ⟨burn, hb⟩ := exists_burn_of_meaning hm
    cases hb
  | .unknown _, _, _, h => by cases h
  | .formula _ _ hs, n, l, h => hs.ne_tooDeep n l h
  | .tooDeep _ hl, _, _, _ => hl trivial

/-- Without a limit no part is too deep. -/
theorem Yields.ne_tooDeep {depth : Nat} {p : Part} {r : Except Fault Amount} :
    a.Yields stats none depth p r → ∀ n l, r ≠ .error (.formulaTooDeep n l)
  | .named hr, n, l, h => hr.ne_tooDeep n l h
  | .stat hr, n, l, h => hr.ne_tooDeep n l (map_eq_error.1 h)
  | .number, _, _, h => by cases h
  | .left hp, n, l, h => hp.ne_tooDeep n l h
  | .right _ hp, n, l, h => hp.ne_tooDeep n l h
  | .product _ _, n, l, h => by cases eq_nonScalarProduct_of_times h
  | .sum hs, n, l, h => hs.ne_tooDeep n l h
  | .unsupported, _, _, h => by cases h

theorem Adds.ne_tooDeep {depth : Nat} {total : Amount} {parts : List Part}
    {r : Except Fault Amount} :
    a.Adds stats none depth total parts r → ∀ n l, r ≠ .error (.formulaTooDeep n l)
  | .nil, _, _, h => by cases h
  | .fault hp, n, l, h => hp.ne_tooDeep n l h
  | .cons _ hs, n, l, h => hs.ne_tooDeep n l h

end

end Ability

end SpellText
