import SpellText.Proofs.Documents
import SpellText.Proofs.Nesting
import SpellText.Proofs.Places

/-!
# Parts of unknown kinds

A part of a kind without a rule has no amount, but it should do no harm to the rest of its
spell : only the formulas that lead to it have no amount either.

That holds where the part can be decoded. All fields of a part that have a meaning for some
kind are decoded for every kind, though (`Record.HasReadableFields`), and one of them that is
not well-formed takes all data of the spell with it (`Record.exists_unread_part`).
`Record.spellData?_fill_unruled` says what becomes of the data in either case.
-/

namespace SpellText

open Formula (Part)

/-! ## What leads to a formula -/

namespace Ability

open Relation (ReflTransGen)

section

variable (a : Ability) (stats : BaseStats)

/-- The second name is in the formula that the first one means. -/
def Mentions (outer inner : String) : Prop :=
  ∃ f, a.meaning stats outer = .formula f ∧ inner ∈ f.names

/-- The second name is the first one or comes up when the first one is looked up. -/
def LeadsTo : String → String → Prop := ReflTransGen (a.Mentions stats)

end

variable {a b : Ability} {stats : BaseStats}

/-- The amount of a name depends only on what the names mean to which it leads. -/
theorem amountWithin_congr_meaning (hn : a.name = b.name) : ∀ {levels : Nat} {name : String},
    (∀ other, a.LeadsTo stats name other → a.meaning stats other = b.meaning stats other) →
      a.amountWithin stats levels name = b.amountWithin stats levels name := by
  intro levels
  induction levels with
  | zero =>
    intro name h
    rw [amountWithin, amountWithin, amountWith, amountWith, ← h name .refl, hn]
  | succ levels ih =>
    intro name h
    have hm := h name .refl
    by_cases hf : ∃ f, a.meaning stats name = .formula f
    · obtain ⟨f, hf⟩ := hf
      rw [amountWithin_succ_of_formula hf, amountWithin_succ_of_formula (hm.symm.trans hf)]
      exact Formula.evaluate_congr fun inner hi => ih fun other ho => h other (.head ⟨f, hf, hi⟩ ho)
    · have hf' : ∀ f, b.meaning stats name ≠ .formula f := by
        rw [← hm]
        exact not_exists.1 hf
      rw [amountWithin_congr (not_exists.1 hf) _ 0, amountWithin_congr hf' _ 0, amountWithin,
        amountWithin, amountWith, amountWith, ← hm, hn]

end Ability

namespace SpellData.Hole

variable (h : Hole) (p q : Part)

/-- Two lookups find the open formula with either part, or the same. -/
def FindsOrAgrees (f? g? : Option Formula) : Prop :=
  f? = some (h.formula p) ∧ g? = some (h.formula q) ∨ f? = g?

/-- The first of two searches finds or agrees if both do. -/
theorem FindsOrAgrees.or {h : Hole} {p q : Part} {f? g? f'? g'? : Option Formula}
    (hf : h.FindsOrAgrees p q f? g?) (hf' : h.FindsOrAgrees p q f'? g'?) :
    h.FindsOrAgrees p q (f?.or f'?) (g?.or g'?) := by
  rcases hf with ⟨rfl, rfl⟩ | rfl
  · exact .inl ⟨rfl, rfl⟩
  · cases f? with
    | none => exact hf'
    | some f => exact .inr rfl

/-- The formulas of an ability with the data. -/
def table : Table Formula :=
  .ofList ((h.fill p).formulas.map fun f => (Text.lowercased f.1, f.2))

/-- A key leads to the formula with the open part, or to the same as before. -/
theorem get?_table (key : String) :
    h.FindsOrAgrees p q ((h.table p).get? key) ((h.table q).get? key) := by
  simp only [table, fill, List.map_append, List.map_cons, Table.get?_ofList_append,
    Table.get?_ofList_cons]
  refine .or (.or (.inr rfl) ?_) (.inr rfl)
  by_cases hk : key = Text.lowercased h.name
  · rw [if_pos hk, if_pos hk]
    exact .inl ⟨rfl, rfl⟩
  · exact .inr (by rw [if_neg hk, if_neg hk])

/-- A name leads to the formula with the open part, or to the same as before. -/
theorem lookUp?_table (lower : String) : h.FindsOrAgrees p q
    (Ability.lookUp? (h.table p) lower) (Ability.lookUp? (h.table q) lower) :=
  (h.get?_table p q lower).or (h.get?_table p q (Name.camelLower lower))

/-- A name means the open formula to an ability, or what it means does not depend on the part. -/
theorem meaning_fill (ability : String) (sheet : SpellSheet) (stats : BaseStats) (name : String) :
    (Ability.ofRecords ability sheet (h.fill p)).meaning stats name = .formula (h.formula p) ∧
        (Ability.ofRecords ability sheet (h.fill q)).meaning stats name
          = .formula (h.formula q) ∨
      (Ability.ofRecords ability sheet (h.fill p)).meaning stats name
        = (Ability.ofRecords ability sheet (h.fill q)).meaning stats name := by
  generalize ha : Ability.ofRecords ability sheet (h.fill p) = a
  have hp : a.formulas = h.table p := ha ▸ rfl
  have hq : Ability.ofRecords ability sheet (h.fill q) = { a with formulas := h.table q } :=
    ha ▸ rfl
  rw [hq]
  unfold Ability.meaning
  generalize Text.lowercased (Text.trimmed name) = lower
  have hrow : { a with formulas := h.table q }.rankRow? lower = a.rankRow? lower := rfl
  have hf := h.lookUp?_table p q lower
  rw [← hp] at hf
  revert hf
  dsimp only
  rw [hrow]
  -- Only where the name is none of those before the formulas do the formulas matter.
  split
  · exact fun _ => .inr rfl
  cases Ability.effectName? lower.toList with
  | some e => exact fun _ => .inr rfl
  | none =>
  cases a.rankRow? lower with
  | some ranks => exact fun _ => .inr rfl
  | none =>
  cases Ability.lookUp? a.values lower with
  | some ranks => exact fun _ => .inr rfl
  | none =>
    rintro (⟨hf, hg⟩ | he)
    · rw [hf, hg]
      exact .inl ⟨rfl, rfl⟩
    · rw [he]
      exact .inr rfl

/-- Only names that lead to the open formula may have another amount with another part. -/
theorem amount_fill (ability : String) (sheet : SpellSheet) (stats : BaseStats) (name : String) :
    (Ability.ofRecords ability sheet (h.fill q)).amount stats name
        = (Ability.ofRecords ability sheet (h.fill p)).amount stats name ∨
      ∃ other, (Ability.ofRecords ability sheet (h.fill p)).LeadsTo stats name other ∧
        (Ability.ofRecords ability sheet (h.fill p)).meaning stats other
          = .formula (h.formula p) ∧
        (Ability.ofRecords ability sheet (h.fill q)).meaning stats other
          = .formula (h.formula q) := by
  by_cases hl : ∀ other, (Ability.ofRecords ability sheet (h.fill p)).LeadsTo stats name other →
      (Ability.ofRecords ability sheet (h.fill p)).meaning stats other
        = (Ability.ofRecords ability sheet (h.fill q)).meaning stats other
  · have hname : (Ability.ofRecords ability sheet (h.fill p)).name
        = (Ability.ofRecords ability sheet (h.fill q)).name := rfl
    rw [Ability.amount, Ability.amount]
    exact .inl (Ability.amountWithin_congr_meaning hname hl).symm
  · obtain ⟨other, hl⟩ := not_forall.1 hl
    obtain ⟨hl, hne⟩ := Classical.not_imp.1 hl
    exact .inr ⟨other, hl, (h.meaning_fill p q ability sheet stats other).resolve_right hne⟩

end SpellData.Hole

namespace Record

/-! ## Parts of a kind without a rule -/

/-- Where names are distinct, a field is the member of its name. -/
theorem slot?_of_distinct {ms : List (String × Json)} (h : Json.HasDistinctNames ms)
    (name : String) : slot? [name] ms = some (Entries.get? name ms) := by
  induction ms with
  | nil => rfl
  | cons m rest ih =>
    obtain ⟨key, v⟩ := m
    obtain ⟨hm, hr⟩ := List.nodup_cons.1 h
    by_cases hk : key = name
    · subst hk
      have hrest : rest.filter (fun m => [key].contains m.1) = [] := by
        refine List.filter_eq_nil_iff.2 fun m hmem hc => hm ?_
        have : m.1 = key := by simpa using hc
        exact List.mem_map.2 ⟨m, hmem, this⟩
      rw [slot?, List.filter_cons_of_pos (by simp), hrest, Entries.get?, if_pos rfl]
    · rw [Entries.get?, if_neg hk, ← ih hr, slot?, slot?,
        List.filter_cons_of_neg (by simpa using hk)]

/-- The field is absent or null, or it can be decoded. -/
def Reads {γ : Type} (decode : Json → Option γ) (ms : List (String × Json)) (name : String) :
    Prop :=
  ∀ v, Entries.get? name ms = some v → v = .null ∨ ∃ x, decode v = some x

/-- The fields of a part that have a meaning in a part of some other kind are well-formed. -/
structure HasReadableFields (ms : List (String × Json)) : Prop where
  name : Reads Json.string? ms "mDataValue"
  x : Reads Json.float? ms "mNumber"
  left : Reads part? ms "mPart1"
  right : Reads part? ms "mPart2"
  subparts : Reads (list? part?) ms "mSubparts"

/-- A field reads if it is absent, null or decodes. -/
theorem reads_iff {γ : Type} {decode : Json → Option γ} {ms : List (String × Json)}
    {name : String} :
    Reads decode ms name ↔ ∃ x, optional? decode (Entries.get? name ms) = some x := by
  unfold Reads
  cases Entries.get? name ms with
  | none => exact ⟨fun _ => ⟨none, rfl⟩, fun _ _ => nofun⟩
  | some v =>
    by_cases hv : v = .null
    · subst hv
      exact ⟨fun _ => ⟨none, rfl⟩, fun _ v hv => .inl (Option.some.inj hv).symm⟩
    · rw [optional?_of_ne_null decode hv]
      constructor
      · intro h
        obtain ⟨x, hx⟩ := (h v rfl).resolve_left hv
        exact ⟨some x, congrArg (Option.map some) hx⟩
      · rintro ⟨x?, hx⟩ w hw
        obtain ⟨x, hx, -⟩ := Option.map_eq_some_iff.1 hx
        exact .inr ⟨x, Option.some.inj hw ▸ hx⟩

section

variable {ms : List (String × Json)} {kind : String}

/-- An object is decoded as a part from what its members are decoded to. -/
theorem part?_of_distinct (hd : Json.HasDistinctNames ms) (hk : ("__type", .string kind) ∈ ms)
    (hp : "mFormulaParts" ∉ ms.map Prod.fst) :
    part? (.object ms) = (gathered (some (some kind))
      (optional? Json.string? (Entries.get? "mDataValue" ms))
      (optional? Json.float? (Entries.get? "mNumber" ms))
      (optional? part? (Entries.get? "mPart1" ms))
      (optional? part? (Entries.get? "mPart2" ms))
      (optional? (list? part?) (Entries.get? "mSubparts" ms)) (some none)).map
        PartFields.part := by
  have hfields : fieldsOf? partFields (.object ms) = some [some (.string kind),
      Entries.get? "mDataValue" ms, Entries.get? "mNumber" ms, Entries.get? "mPart1" ms,
      Entries.get? "mPart2" ms, Entries.get? "mSubparts" ms, none] := by
    show partFields.mapM (slot? · ms) = _
    rw [← Entries.get?_of_mem hd hk, ← Entries.get?_eq_none_iff.2 hp]
    simp only [partFields, List.mapM_cons, List.mapM_nil, slot?_of_distinct hd]
    rfl
  rw [part?_eq, hfields]
  rfl

/-- A part of a kind without a rule decodes if and only if its fields do, and then only its
kind is left of it. -/
theorem part?_unruled (hd : Json.HasDistinctNames ms) (hk : ("__type", .string kind) ∈ ms)
    (hr : kind ∉ ruledKinds) (hp : "mFormulaParts" ∉ ms.map Prod.fst) :
    (HasReadableFields ms → part? (.object ms) = some (.unsupported kind)) ∧
      (¬ HasReadableFields ms → part? (.object ms) = none) := by
  rw [part?_of_distinct hd hk hp]
  constructor
  · intro h
    obtain ⟨name, hname⟩ := reads_iff.1 h.name
    obtain ⟨x, hx⟩ := reads_iff.1 h.x
    obtain ⟨left, hleft⟩ := reads_iff.1 h.left
    obtain ⟨right, hright⟩ := reads_iff.1 h.right
    obtain ⟨subparts, hsubparts⟩ := reads_iff.1 h.subparts
    rw [hname, hx, hleft, hright, hsubparts]
    have hkinds : ∀ k ∈ ruledKinds, some kind ≠ some k := fun k hk he =>
      hr (Option.some.inj he ▸ hk)
    exact congrArg some (partOfKind_of_unruled hkinds)
  · intro h
    rw [Option.map_eq_none_iff, Option.eq_none_iff_forall_ne_some]
    intro f hf
    obtain ⟨-, hname, hx, hleft, hright, hsubparts, -⟩ := gathered_eq_some hf
    exact h ⟨reads_iff.2 ⟨_, hname⟩, reads_iff.2 ⟨_, hx⟩, reads_iff.2 ⟨_, hleft⟩,
      reads_iff.2 ⟨_, hright⟩, reads_iff.2 ⟨_, hsubparts⟩⟩

end

/-- Put into the place of a part, an object of a kind without a rule becomes an unsupported
part of that kind if its fields are well-formed, and otherwise the spell has no data. The rest
of the data is the same, and so is the amount of every name that does not lead to the formula
with the place. -/
theorem spellData?_fill_unruled (c : SpellPlace) {old : Json} {d : SpellData}
    (hold : old ≠ .null) (hd : spellData? (c.fill old) = some d) :
    ∃ (h : SpellData.Hole) (p : Part), part? old = some p ∧ d = h.fill p ∧
      ∀ (ms : List (String × Json)) (kind : String), Json.HasDistinctNames ms →
        ("__type", .string kind) ∈ ms → kind ∉ ruledKinds →
        "mFormulaParts" ∉ ms.map Prod.fst →
          (HasReadableFields ms →
            spellData? (c.fill (.object ms)) = some (h.fill (.unsupported kind))) ∧
          (¬ HasReadableFields ms → spellData? (c.fill (.object ms)) = none) ∧
          ∀ (ability : String) (sheet : SpellSheet) (stats : BaseStats) (name : String),
            (Ability.ofRecords ability sheet (h.fill (.unsupported kind))).amount stats name
                = (Ability.ofRecords ability sheet d).amount stats name ∨
              ∃ other, (Ability.ofRecords ability sheet d).LeadsTo stats name other ∧
                (Ability.ofRecords ability sheet d).meaning stats other
                  = .formula (h.formula p) ∧
                (Ability.ofRecords ability sheet (h.fill (.unsupported kind))).meaning stats other
                  = .formula (h.formula (.unsupported kind)) := by
  obtain ⟨h?, hfill⟩ := c.exists_spellData?_fill
  rw [hfill old hold] at hd
  obtain ⟨h, rfl, hd⟩ := Option.bind_eq_some_iff.1 hd
  obtain ⟨p, hp, rfl⟩ := Option.map_eq_some_iff.1 hd
  refine ⟨h, p, hp, rfl, fun ms kind hdist hkind hrule hparts => ?_⟩
  obtain ⟨hread, hbad⟩ := part?_unruled hdist hkind hrule hparts
  rw [hfill (.object ms) nofun, Option.bind_some]
  refine ⟨fun hr => ?_, fun hr => ?_, h.amount_fill p (.unsupported kind)⟩
  · rw [hread hr, Option.map_some]
  · rw [hbad hr, Option.map_none]

/-- A spell with one named number, and a place for the part of its one formula. -/
def totalPlace : SpellPlace where
  spell := .member [("DataValues", .array [.object [("mName", .string "Base"),
    ("mValues", .array [.number (.whole 80)])]])] []
  before := []
  name := "Total"
  formula := .member [] []
  partsBefore := []
  part := .here
  partsAfter := []
  after := []

/-- The part that stands for the named number. -/
def basePart : Json :=
  .object [("__type", .string "NamedDataValueCalculationPart"), ("mDataValue", .string "Base")]

theorem basePart_ne_null : basePart ≠ .null := nofun

theorem spellData?_fill_base : spellData? (totalPlace.fill basePart)
    = some ⟨[⟨some "Base", [Float.ofInt 80]⟩], [("Total", ⟨[.named "Base"]⟩)]⟩ :=
  rfl

/-- A part of a kind without a rule. -/
def levelPart : List (String × Json) :=
  [("__type", .string "ByCharLevelInterpolationCalculationPart"),
    ("mStartValue", .number (.whole 10))]

theorem spellData?_fill_unruled_base : basePart ≠ .null ∧
    spellData? (totalPlace.fill basePart)
      = some ⟨[⟨some "Base", [Float.ofInt 80]⟩], [("Total", ⟨[.named "Base"]⟩)]⟩ ∧
    ∃ (h : SpellData.Hole) (p : Part), part? basePart = some p ∧
      ⟨[⟨some "Base", [Float.ofInt 80]⟩], [("Total", ⟨[.named "Base"]⟩)]⟩ = h.fill p ∧
      spellData? (totalPlace.fill (.object levelPart))
        = some (h.fill (.unsupported "ByCharLevelInterpolationCalculationPart")) := by
  refine ⟨basePart_ne_null, spellData?_fill_base, ?_⟩
  obtain ⟨h, p, hp, hd, hall⟩ :=
    spellData?_fill_unruled totalPlace basePart_ne_null spellData?_fill_base
  have hdist : Json.HasDistinctNames levelPart := by
    rw [Json.HasDistinctNames]
    decide
  have hread : HasReadableFields levelPart :=
    ⟨fun _ => nofun, fun _ => nofun, fun _ => nofun, fun _ => nofun, fun _ => nofun⟩
  exact ⟨h, p, hp, hd,
    (hall levelPart _ hdist List.mem_cons_self (by decide) (by decide)).1 hread⟩

/-- A part of a kind without a rule may take the data of the spell with it: here its number
is none. -/
theorem exists_unread_part :
    ¬ ∀ (c : SpellPlace) (old : Json) (d : SpellData) (ms : List (String × Json))
        (kind : String), old ≠ .null → spellData? (c.fill old) = some d →
        Json.HasDistinctNames ms → ("__type", .string kind) ∈ ms → kind ∉ ruledKinds →
        "mFormulaParts" ∉ ms.map Prod.fst →
          ∃ d', spellData? (c.fill (.object ms)) = some d' := by
  intro h
  have hdist : Json.HasDistinctNames [("__type",
      .string "ByCharLevelInterpolationCalculationPart"), ("mNumber", .string "ten")] := by
    rw [Json.HasDistinctNames]
    decide
  obtain ⟨d', hd'⟩ := h totalPlace basePart _ _ _ basePart_ne_null spellData?_fill_base hdist
    List.mem_cons_self (by decide) (by decide)
  have hnone : spellData? (totalPlace.fill (.object [("__type",
      .string "ByCharLevelInterpolationCalculationPart"), ("mNumber", .string "ten")])) = none :=
    rfl
  rw [hnone] at hd'
  cases hd'

end Record

end SpellText
