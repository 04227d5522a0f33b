import SpellText.Decimal.Reading
import SpellText.Formula.Evaluation
import SpellText.Record.Spell
import SpellText.Text.Blank
import SpellText.Text.Split

/-!
# Abilities

What the names in the text of an ability stand for. A name is tried, in this
order, as

1. one of the names that are always zero,
2. an effect amount, such as `e1` or `effect1amount`,
3. the cooldown, cost or range,
4. a named number of the spell,
5. a formula of the spell,
6. a base stat of the champion.

Effect amounts, cooldown, cost and range have a variant with `nl` at the end,
the amount at the next level. Formulas look up names in turn; the number of
formulas inside each other is limited (`formulaLimit`), so that formulas which
refer to themselves come to an end.
-/

namespace SpellText

open Text (lowercased trimmed)

/-! ## Base stats -/

/-- The base stats of a champion by camel-cased name. -/
structure BaseStats where
  values : Table Float

namespace BaseStats

/-- The numbers among the stats of a sheet. -/
def ofSheet (stats : List (String × Json)) : BaseStats :=
  ⟨.ofList (stats.filterMap fun s => s.2.float?.map (Name.camelCase s.1, ·))⟩

/-- The stat with a camel-cased name. -/
def get? (b : BaseStats) (name : String) : Option Float := b.values.get? name

end BaseStats

/-! ## Abilities -/

/-- Everything that an ability knows about its numbers. -/
structure Ability where
  /-- The spell, or `passive`. -/
  name : String
  cooldown : List Float
  cost : List Float
  range : List Float
  effects : List (Option (List Float))
  burns : List (Option String)
  /-- Named numbers under their names in lower case. -/
  values : Table (List Float)
  /-- Formulas under their names in lower case. -/
  formulas : Table Formula

/-- A name of an effect amount, taken apart. -/
structure EffectName where
  /-- The digits of the effect number. -/
  digits : List Char
  /-- The amount at the next level is meant. -/
  next : Bool
  deriving DecidableEq, Repr

namespace Ability

/-- The ability with the given sheet and game data. Numbers without a name
cannot be asked for; of those with the same name the last one counts. -/
def ofRecords (name : String) (sheet : SpellSheet) (data : SpellData) : Ability where
  name := name
  cooldown := sheet.cooldown
  cost := sheet.cost
  range := sheet.range
  effects := sheet.effects
  burns := sheet.burns
  values := .ofList <| data.values.filterMap fun v =>
    (v.name.filter fun n => !n.isEmpty).map fun n => (lowercased n, v.ranks)
  formulas := .ofList <| data.formulas.map fun f => (lowercased f.1, f.2)

/-! ### Names with a fixed meaning -/

/-- Names that stand for zero. -/
def zeroNames : List String :=
  ["spellmodifierdescriptionappend", "spellmancost", "spelleffectfootnote"]

/-- What may stand behind the number of an effect; says whether the next level
is meant. -/
def effectSuffix? (s : List Char) : Option Bool :=
  if s = [] || s = "amount".toList then some false
  else if s = "nl".toList || s = "amountnl".toList then some true
  else none

/-- The effect that a text behind the word for effects asks for. -/
def effectTail? (s : List Char) : Option EffectName :=
  match s.span Text.isDecimalDigit with
  | ([], _) => none
  | (digits, rest) => (effectSuffix? rest).map (⟨digits, ·⟩)

/-- The text without `p` at its start. -/
def dropStart? (p s : List Char) : Option (List Char) :=
  if p.isPrefixOf s then some (s.drop p.length) else none

/-- The effect that a name in lower case asks for: `e1`, `effect1`,
`effect1amount`, `e1nl` and so on. -/
def effectName? (name : List Char) : Option EffectName :=
  ((dropStart? "effect".toList name).bind effectTail?).or
    ((dropStart? "e".toList name).bind effectTail?)

/-- The numbers in a text such as `10/20/30`; empty pieces are left out. -/
def burnRanks? (burn : String) : Option (List Float) :=
  (((Text.split '/' burn.toList).map Text.trim).filter (!·.isEmpty)).mapM Decimal.float?

/-- The amounts of effect `index`: from the list, else from the text, else none. -/
def effectRanks (a : Ability) (index : Nat) : Except Fault (List Float) :=
  match a.effects[index]? with
  | some (some ranks) => .ok ranks
  | _ =>
    match a.burns[index]? with
    | some (some burn) =>
      match burnRanks? burn with
      | some ranks => .ok ranks
      | none => .error (.invalidEffectBurn burn)
    | _ => .ok []

/-- The ranks, or those of the next level. -/
def atLevel (next : Bool) (ranks : List Float) : List Float :=
  if next then Ranks.next ranks else ranks

/-- No list of effects is as long. -/
def effectBound : Nat := Nat.pow 2 64

/-- The amounts of an effect. A number in other than ASCII digits names no effect,
and one from `effectBound` on does not either. -/
def namedEffect (a : Ability) (e : EffectName) : Except Fault (List Float) :=
  let index := Text.digitsValueUpTo effectBound e.digits
  if e.digits.all Char.isDigit && index < effectBound then
    (a.effectRanks index).map (atLevel e.next)
  else .ok []

/-- The cooldown, cost or range. -/
def rankRow? (a : Ability) (name : String) : Option (List Float) :=
  if name = "cooldown" then some a.cooldown
  else if name = "cost" then some a.cost
  else if name = "range" then some a.range
  else if name = "cooldownnl" then some (Ranks.next a.cooldown)
  else if name = "costnl" then some (Ranks.next a.cost)
  else if name = "rangenl" then some (Ranks.next a.range)
  else none

/-! ### Looking up names -/

/-- The value of a table under a name in lower case, else under the same name
without separators. -/
def lookUp? {α : Type} (t : Table α) (lower : String) : Option α :=
  (t.get? lower).or (t.get? (Name.camelLower lower))

/-- What a name means to an ability. -/
inductive Meaning
  /-- A flat amount by rank, or the fault in its source. -/
  | ranks (cs : Except Fault (List Float))
  /-- A formula. -/
  | formula (f : Formula)
  /-- Nothing. -/
  | unknown

/-- What `name` means, without regard to blanks around it and to case. -/
def meaning (a : Ability) (stats : BaseStats) (name : String) : Meaning :=
  let lower := lowercased (trimmed name)
  if lower ∈ zeroNames then .ranks (.ok [0.0])
  else match effectName? lower.toList with
  | some e => .ranks (a.namedEffect e)
  | none =>
    match a.rankRow? lower with
    | some ranks => .ranks (.ok ranks)
    | none =>
      match lookUp? a.values lower with
      | some ranks => .ranks (.ok ranks)
      | none =>
        match lookUp? a.formulas lower with
        | some f => .formula f
        | none =>
          match stats.get? (Name.camelCase lower) with
          | some x => .ranks (.ok [x])
          | none => .unknown

/-- How many formulas may be inside each other. -/
def formulaLimit : Nat := 32

/-- The amount of `name`, given how formulas are evaluated. -/
def amountWith (a : Ability) (stats : BaseStats) (formula : Formula → Except Fault Amount)
    (name : String) : Except Fault Amount :=
  match a.meaning stats name with
  | .ranks cs => cs.map .ofRanks
  | .formula f => formula f
  | .unknown => .error (.unknownPlaceholder (trimmed name) a.name)

theorem amountWith_of_formula {a : Ability} {stats : BaseStats} {name : String} {f : Formula}
    (h : a.meaning stats name = .formula f) (formula : Formula → Except Fault Amount) :
    a.amountWith stats formula name = formula f := by
  rw [amountWith, h]

/-- How formulas are evaluated does not matter to other names. -/
theorem amountWith_congr {a : Ability} {stats : BaseStats} {name : String}
    (h : ∀ f, a.meaning stats name ≠ .formula f)
    (formula formula' : Formula → Except Fault Amount) :
    a.amountWith stats formula name = a.amountWith stats formula' name := by
  rw [amountWith, amountWith]
  cases hm : a.meaning stats name with
  | formula f => exact absurd hm (h f)
  | ranks cs => rfl
  | unknown => rfl

/-- The amount of `name` inside of formulas, with `levels` more allowed. -/
def amountWithin (a : Ability) (stats : BaseStats) : Nat → String → Except Fault Amount
  | 0, name =>
    a.amountWith stats (fun _ => .error (.formulaTooDeep (trimmed name) formulaLimit)) name
  | levels + 1, name =>
    a.amountWith stats (fun f => f.evaluate (a.amountWithin stats levels)) name

theorem amountWithin_zero_of_formula {a : Ability} {stats : BaseStats} {name : String}
    {f : Formula} (h : a.meaning stats name = .formula f) :
    a.amountWithin stats 0 name = .error (.formulaTooDeep (trimmed name) formulaLimit) := by
  rw [amountWithin, amountWith_of_formula h]

theorem amountWithin_succ_of_formula {a : Ability} {stats : BaseStats} {name : String}
    {f : Formula} (h : a.meaning stats name = .formula f) (levels : Nat) :
    a.amountWithin stats (levels + 1) name = f.evaluate (a.amountWithin stats levels) := by
  rw [amountWithin, amountWith_of_formula h]

/-- What is no formula has the same amount within any number of levels. -/
theorem amountWithin_congr {a : Ability} {stats : BaseStats} {name : String}
    (h : ∀ f, a.meaning stats name ≠ .formula f) (levels levels' : Nat) :
    a.amountWithin stats levels name = a.amountWithin stats levels' name := by
  cases levels <;> cases levels' <;> unfold amountWithin <;> exact amountWith_congr h _ _

/-- The amount of `name`. -/
def amount (a : Ability) (stats : BaseStats) (name : String) : Except Fault Amount :=
  a.amountWithin stats formulaLimit name

end Ability

end SpellText
