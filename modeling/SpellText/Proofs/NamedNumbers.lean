import SpellText.Proofs.NextLevel

/-!
# Numbers by their own names

The named numbers and the formulas of a spell are written into two tables under their names in
lower case, so that of names that differ in the case of their letters only the last one counts
(`Table.get?_ofList_filterMap_eq`). The tables are looked into after the names with a fixed
meaning, each of them twice, and the numbers before the formulas.

`Ability.amountWithin_ofRecords` : a name without a fixed meaning (`Ability.IsFree`) leads to
the number that it is the name of, and else to its formula, whatever else has the same name. The
second look, under the name without its separators, is never needed for this.
-/

namespace SpellText

open Text (lowercased trimmed)

/-! ## The last of several entries -/

theorem findRev?_cons {α : Type} (p : α → Bool) (x : α) (xs : List α) :
    (x :: xs).findRev? p = (xs.findRev? p).or (if p x then some x else none) := by
  rw [List.findRev?]
  cases xs.findRev? p <;> cases p x <;> rfl

theorem exists_findRev?_eq_some {α : Type} {p : α → Bool} {xs : List α} {x : α} (hx : x ∈ xs)
    (h : p x = true) : ∃ y, xs.findRev? p = some y := by
  refine Option.isSome_iff_exists.1 ?_
  rw [List.findRev?_eq_find?_reverse, List.find?_isSome]
  exact ⟨x, List.mem_reverse.2 hx, h⟩

/-- Where `p` picks the inputs that are written under a name, the last of them is found there. -/
theorem Table.get?_ofList_filterMap_eq {α β : Type} {f : β → Option (String × α)} {p : β → Bool}
    {g : β → α} {key : String} (hp : ∀ x, p x = true → f x = some (key, g x))
    (hf : ∀ x e, f x = some e → e.1 = key → p x = true) (xs : List β) :
    (ofList (xs.filterMap f)).get? key = (xs.findRev? p).map g := by
  induction xs with
  | nil => rfl
  | cons x xs ih =>
    rw [List.filterMap_cons, findRev?_cons]
    cases hx : p x with
    | true =>
      rw [hp x hx, get?_ofList_cons, ih, if_pos rfl, if_pos rfl]
      cases xs.findRev? p <;> rfl
    | false =>
      rw [if_neg Bool.false_ne_true, Option.or_none, ← ih]
      cases he : f x with
      | none => rfl
      | some e =>
        have hne : key ≠ e.1 := fun h => by simp [hf x e he h.symm] at hx
        show (ofList (e :: xs.filterMap f)).get? key = _
        rw [get?_ofList_cons, if_neg hne, Option.or_none]

namespace Text

theorem lowerChar_ne_nil (c : Char) : lowerChar c ≠ [] := by
  unfold lowerChar
  split
  · exact List.cons_ne_nil _ _
  · split
    · exact List.cons_ne_nil _ _
    · split <;> exact List.cons_ne_nil _ _

/-- Only the empty name is empty in lower case. -/
theorem lowercased_ne_empty {name : String} (h : name ≠ "") : lowercased name ≠ "" := by
  have hne : name.toList ≠ [] := by simpa using h
  obtain ⟨c, s, hs⟩ := List.exists_cons_of_ne_nil hne
  have hcons : lowercase name.toList ≠ [] := by
    rw [hs, lowercase, lowercaseAfter]
    refine List.append_ne_nil_of_left_ne_nil ?_ _
    split
    · exact List.cons_ne_nil _ _
    · exact lowerChar_ne_nil c
  simpa [lowercased] using hcons

end Text

namespace Ability

/-! ## Names without a fixed meaning -/

/-- A name in lower case that is not always zero and does not stand for an amount of an effect,
the cooldown, the cost or the range, be it at the next level. -/
structure IsFree (lower : String) : Prop where
  notZero : lower ∉ zeroNames
  notLevel : ∀ form next, IsLevelName form → lower.toList ≠ form ++ levelMark next

/-- The names of the cooldown, the cost and the range. -/
def rowNames : List String := ["cooldown", "cost", "range", "cooldownnl", "costnl", "rangenl"]

/-- A name is that of a row of ranks if it is in the list of these names. -/
theorem rankRow?_eq_none_iff (a : Ability) {lower : String} :
    a.rankRow? lower = none ↔ lower ∉ rowNames := by
  unfold rankRow? rowNames
  repeat' split
  all_goals simp [*]

/-- The names of rows are the three rows, with or without the mark of the next level. -/
theorem mem_rowNames_iff {lower : String} : lower ∈ rowNames ↔
    ∃ row ∈ ["cooldown", "cost", "range"], ∃ next,
      lower.toList = row.toList ++ levelMark next := by
  constructor
  · have hall : ∀ lower ∈ rowNames, ∃ row ∈ ["cooldown", "cost", "range"], ∃ next,
        lower.toList = row.toList ++ levelMark next := by decide
    exact hall lower
  · rintro ⟨row, hrow, next, h⟩
    have hall : ∀ next, ∀ row ∈ ["cooldown", "cost", "range"],
        String.ofList (row.toList ++ levelMark next) ∈ rowNames := by decide
    rw [← String.ofList_toList (s := lower), h]
    exact hall next row hrow

/-- Free are the names that the steps before the tables leave over. -/
theorem isFree_iff {lower : String} :
    IsFree lower ↔ lower ∉ zeroNames ∧ effectName? lower.toList = none ∧ lower ∉ rowNames := by
  constructor
  · intro h
    refine ⟨h.notZero, Option.eq_none_iff_forall_ne_some.2 fun e he => ?_, fun hrow => ?_⟩
    · obtain ⟨form, hform, hs⟩ := exists_of_effectName? he
      exact h.notLevel form e.next hform hs
    · obtain ⟨row, hmem, next, hs⟩ := mem_rowNames_iff.1 hrow
      exact h.notLevel _ next (.row hmem) hs
  · rintro ⟨hzero, heffect, hrow⟩
    refine ⟨hzero, fun form next hform hs => ?_⟩
    cases hform with
    | row hmem => exact hrow (mem_rowNames_iff.2 ⟨_, hmem, next, hs⟩)
    | effect hword htail hne hdigits =>
      rw [hs, effectName?_append hne hdigits hword htail] at heffect
      cases heffect

instance (lower : String) : Decidable (IsFree lower) := decidable_of_iff _ isFree_iff.symm

section

variable {a : Ability} {name : String} (h : IsFree (lowercased (trimmed name)))
include h

/-- A free name that is found among the named numbers means that number. -/
theorem meaning_of_value {ranks : List Float}
    (hv : a.values.get? (lowercased (trimmed name)) = some ranks) (stats : BaseStats) :
    a.meaning stats name = .ranks (.ok ranks) := by
  obtain ⟨hzero, heffect, hrow⟩ := isFree_iff.1 h
  have hrank := (rankRow?_eq_none_iff a).2 hrow
  have hlook : lookUp? a.values (lowercased (trimmed name)) = some ranks := by
    rw [lookUp?, hv, Option.some_or]
  simp only [meaning, if_neg hzero, heffect, hrank, hlook]

/-- A free name that is not found there, but among the formulas, means that formula. -/
theorem meaning_of_formula {f : Formula} (hv : lookUp? a.values (lowercased (trimmed name)) = none)
    (hf : a.formulas.get? (lowercased (trimmed name)) = some f) (stats : BaseStats) :
    a.meaning stats name = .formula f := by
  obtain ⟨hzero, heffect, hrow⟩ := isFree_iff.1 h
  have hrank := (rankRow?_eq_none_iff a).2 hrow
  have hlook : lookUp? a.formulas (lowercased (trimmed name)) = some f := by
    rw [lookUp?, hf, Option.some_or]
  simp only [meaning, if_neg hzero, heffect, hrank, hv, hlook]

end

/-! ## The tables of an ability -/

section

variable (name : String) (sheet : SpellSheet) {data : SpellData} {key : String}

/-- The last number with a name is found under it. Numbers without a name, or with an empty
one, do not get in its way. -/
theorem get?_values_ofRecords (hkey : key ≠ "") : (ofRecords name sheet data).values.get? key
    = (data.values.findRev? fun v => v.name.map lowercased = some key).map NamedRanks.ranks := by
  refine Table.get?_ofList_filterMap_eq (fun v hv => ?_) (fun v e he hk => ?_) data.values
  · obtain ⟨n, hn, rfl⟩ := Option.map_eq_some_iff.1 (of_decide_eq_true hv)
    have hne : n ≠ "" := by
      rintro rfl
      exact hkey rfl
    simp [hn, hne]
  · obtain ⟨n, hn, rfl⟩ := Option.map_eq_some_iff.1 he
    rw [(Option.filter_eq_some_iff.1 hn).1]
    exact decide_eq_true (congrArg some hk)

/-- Nothing is found under what is the name of no number. -/
theorem get?_values_eq_none
    (h : ∀ v ∈ data.values, ∀ n, v.name = some n → n ≠ "" → lowercased n ≠ key) :
    (ofRecords name sheet data).values.get? key = none := by
  refine Table.get?_ofList_eq_none_iff.2 fun hmem => ?_
  obtain ⟨e, he, rfl⟩ := List.mem_map.1 hmem
  obtain ⟨v, hv, hve⟩ := List.mem_filterMap.1 he
  obtain ⟨n, hn, rfl⟩ := Option.map_eq_some_iff.1 hve
  obtain ⟨hname, hne⟩ := Option.filter_eq_some_iff.1 hn
  exact h v hv n hname (by simpa using hne) rfl

/-- The last formula with a name is found under it. -/
theorem get?_formulas_ofRecords : (ofRecords name sheet data).formulas.get? key
    = (data.formulas.findRev? fun f => lowercased f.1 = key).map Prod.snd := by
  rw [ofRecords, ← List.filterMap_eq_map]
  refine Table.get?_ofList_filterMap_eq (fun f hf => ?_) (fun f e he hk => ?_) data.formulas
  · rw [Function.comp_apply, of_decide_eq_true hf]
  · cases he
    exact decide_eq_true hk

end

/-- The name of a number, and whatever reads the same without blanks around it and in small
letters, leads to the last number that has this name in small letters. A free name that is the
name of no number, not even without its separators, leads to the last formula that has it in
small letters, if there is one : the formula is evaluated unless formulas are too deep inside
each other already. What else has the name does not matter. -/
theorem amountWithin_ofRecords (ability : String) (sheet : SpellSheet) (data : SpellData) :
    (∀ v ∈ data.values, ∀ n, v.name = some n → n ≠ "" → trimmed n = n → IsFree (lowercased n) →
      ∃ w, (data.values.findRev? fun u => u.name.map lowercased = some (lowercased n)) = some w ∧
        ∀ stats levels name, lowercased (trimmed name) = lowercased (trimmed n) →
          (ofRecords ability sheet data).amountWithin stats levels name
            = .ok (.ofRanks w.ranks)) ∧
    ∀ name lower, lowercased (trimmed name) = lower → IsFree lower →
      (∀ v ∈ data.values, ∀ n, v.name = some n → n ≠ "" →
        lowercased n ≠ lower ∧ lowercased n ≠ Name.camelLower lower) →
      (∃ f ∈ data.formulas, lowercased f.1 = lower) →
      ∃ f, (data.formulas.findRev? fun g => lowercased g.1 = lower) = some f ∧
        ∀ stats, (ofRecords ability sheet data).amountWithin stats 0 name
            = .error (.formulaTooDeep (trimmed name) formulaLimit) ∧
          ∀ levels, (ofRecords ability sheet data).amountWithin stats (levels + 1) name
            = f.2.evaluate ((ofRecords ability sheet data).amountWithin stats levels) := by
  constructor
  · intro v hv n hn hne htrim hfree
    obtain ⟨w, hw⟩ : ∃ w, (data.values.findRev? fun u =>
        u.name.map lowercased = some (lowercased n)) = some w :=
      exists_findRev?_eq_some hv (decide_eq_true (congrArg _ hn))
    refine ⟨w, hw, fun stats levels name hname => ?_⟩
    rw [htrim] at hname
    have hget : (ofRecords ability sheet data).values.get? (lowercased n) = some w.ranks := by
      rw [get?_values_ofRecords ability sheet (Text.lowercased_ne_empty hne), hw, Option.map_some]
    rw [← hname] at hfree hget
    rw [amountWithin_of_meaning (meaning_of_value hfree hget stats)]
    rfl
  · rintro name _ rfl hfree hnone ⟨g, hg, hlower⟩
    obtain ⟨f, hf⟩ : ∃ f, (data.formulas.findRev? fun g =>
        lowercased g.1 = lowercased (trimmed name)) = some f :=
      exists_findRev?_eq_some hg (decide_eq_true hlower)
    have hvalue : lookUp? (ofRecords ability sheet data).values (lowercased (trimmed name))
        = none := by
      rw [lookUp?, get?_values_eq_none ability sheet fun v hv n hn hne => (hnone v hv n hn hne).1,
        get?_values_eq_none ability sheet fun v hv n hn hne => (hnone v hv n hn hne).2]
      rfl
    have hget : (ofRecords ability sheet data).formulas.get? (lowercased (trimmed name))
        = some f.2 := by
      rw [get?_formulas_ofRecords, hf, Option.map_some]
    refine ⟨f, hf, fun stats => ?_⟩
    have hmeaning := meaning_of_formula hfree hvalue hget stats
    exact ⟨amountWithin_zero_of_formula hmeaning, amountWithin_succ_of_formula hmeaning⟩

/-- Game data of a spell with names that differ in the case of their letters only, and with
numbers that have no name or an empty one. -/
def doubled : SpellData where
  values := [⟨some "Damage", [10]⟩, ⟨none, [20]⟩, ⟨some "", [30]⟩, ⟨some "DAMAGE", [40]⟩]
  formulas := [("damage", ⟨[.number 1]⟩), ("Total", ⟨[.number 2]⟩), ("TOTAL", ⟨[.named "Damage"]⟩)]

/-- Base stats with the names of a number and a formula. -/
def doubledStats : BaseStats := ⟨.ofList [("Damage", 50), ("Total", 60)]⟩

theorem amountWithin_ofRecords_doubled :
    trimmed "Damage" = "Damage" ∧ IsFree (lowercased "Damage") ∧ IsFree (lowercased "ToTaL") ∧
      (ofRecords "AhriQ" .empty doubled).amount doubledStats " damage " = .ok (.ofRanks [40]) ∧
      (ofRecords "AhriQ" .empty doubled).amount doubledStats "ToTaL"
        = (⟨[.named "Damage"]⟩ : Formula).evaluate
          ((ofRecords "AhriQ" .empty doubled).amountWithin doubledStats 31) := by
  have htrim : trimmed "Damage" = "Damage" := by decide +kernel
  have hvalue : IsFree (lowercased "Damage") := by decide +kernel
  have hformula : IsFree (lowercased "ToTaL") := by decide +kernel
  obtain ⟨hvalues, hformulas⟩ := amountWithin_ofRecords "AhriQ" .empty doubled
  obtain ⟨w, hw, hdamage⟩ := hvalues ⟨some "Damage", [10]⟩ List.mem_cons_self "Damage" rfl
    (by decide) htrim hvalue
  obtain ⟨f, hf, htotal⟩ := hformulas "ToTaL" "total" (by decide +kernel) (by decide +kernel)
    (by decide +kernel) ⟨("Total", ⟨[.number 2]⟩), by simp [doubled], by decide +kernel⟩
  refine ⟨htrim, hvalue, hformula, ?_, ?_⟩
  · obtain rfl : _ = w := Option.some.inj hw
    exact hdamage doubledStats formulaLimit " damage " (by decide +kernel)
  · obtain rfl : _ = f := Option.some.inj hf
    exact (htotal doubledStats).2 31

end Ability

end SpellText
