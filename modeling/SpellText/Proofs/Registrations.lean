import Mathlib.Data.List.Induction
import Mathlib.Order.Bounds.Basic
import SpellText.Proofs.Keys

/-!
# What a champion registers

The abilities of a champion stand in the order of their registration : those of the spells
that have an id and data, then the passive one. A spell without data leaves no gap, so that
an ability need not stand in the slot of its spell (`Champion.place`); its letter is that of
the slot all the same (`Champion.HasKey`).

`Registry.get?_positions_eq_some_iff` says of any registrations that a key leads to the last
one that has it, by one step for each registration, and `Champion.isRegistered_ofRecords`
says which these are for a champion.
-/

namespace SpellText

open Champion (Registration)

namespace Registry

/-! ## Registrations -/

variable {rs : List Registration} {r : Registration} {key : String} {p : Nat}

theorem abilities_ofRegistrations (rs : List Registration) :
    (ofRegistrations rs).abilities = rs.map (·.ability) := by
  induction rs using List.reverseRecOn with
  | nil => rfl
  | append_singleton rs r ih => simp [ih]

theorem getElem?_append_toList {o : Option Registration} :
    (rs ++ o.toList)[p]? = some r ↔ rs[p]? = some r ∨ o = some r ∧ p = rs.length := by
  by_cases h : p < rs.length
  · rw [List.getElem?_append_left h]
    exact ⟨.inl, fun h' => h'.elim id fun h' => absurd h'.2 (Nat.ne_of_lt h)⟩
  · rw [List.getElem?_append_right (Nat.le_of_not_lt h),
      List.getElem?_eq_none (Nat.le_of_not_lt h)]
    cases o with
    | none => simp
    | some r' =>
      rw [Option.toList_some, List.getElem?_singleton]
      split
      · next hp => simp [show p = rs.length by omega]
      · next hp => simp [show p ≠ rs.length by omega]

/-- Where in a list the registrations with a key stand. -/
def holders (rs : List Registration) (key : String) : Set Nat :=
  {p | ∃ r, rs[p]? = some r ∧ key ∈ r.keys}

theorem lt_of_mem_holders (h : p ∈ holders rs key) : p < rs.length := by
  obtain ⟨r, hr, -⟩ := h
  exact (List.getElem?_eq_some_iff.1 hr).1

/-- A registration more holds its own keys, and the others stay. -/
theorem mem_holders_concat :
    p ∈ holders (rs ++ [r]) key ↔ p ∈ holders rs key ∨ p = rs.length ∧ key ∈ r.keys := by
  have hr : ∀ r', (rs ++ [r])[p]? = some r' ↔ rs[p]? = some r' ∨ r = r' ∧ p = rs.length := by
    intro r'
    rw [← Option.toList_some, getElem?_append_toList, Option.some.injEq]
  constructor
  · rintro ⟨r', hr', hk⟩
    rcases (hr r').1 hr' with hr' | ⟨rfl, hp⟩
    · exact .inl ⟨r', hr', hk⟩
    · exact .inr ⟨hp, hk⟩
  · rintro (⟨r', hr', hk⟩ | ⟨hp, hk⟩)
    · exact ⟨r', (hr r').2 (.inl hr'), hk⟩
    · exact ⟨r, (hr r).2 (.inr ⟨rfl, hp⟩), hk⟩

/-- A key leads to the last registration that has it. -/
theorem get?_positions_eq_some_iff :
    (ofRegistrations rs).positions.get? key = some p ↔ IsGreatest (holders rs key) p := by
  -- From the end of the list : the last registration decides over its keys.
  induction rs using List.reverseRecOn with
  | nil => simp [ofRegistrations, empty, IsGreatest, holders]
  | append_singleton rs r ih =>
    have hlen : (ofRegistrations rs).abilities.length = rs.length := by
      rw [abilities_ofRegistrations, List.length_map]
    rw [ofRegistrations_concat, get?_positions_register, hlen]
    split
    · next hk =>
      have hlast : IsGreatest (holders (rs ++ [r]) key) rs.length := by
        refine ⟨mem_holders_concat.2 (.inr ⟨rfl, hk⟩), fun q hq => ?_⟩
        have := lt_of_mem_holders hq
        rw [List.length_append, List.length_singleton] at this
        exact Nat.le_of_lt_succ this
      rw [Option.some.injEq]
      exact ⟨fun h => h ▸ hlast, hlast.unique⟩
    · next hk =>
      have hsame : holders (rs ++ [r]) key = holders rs key := by
        ext q
        rw [mem_holders_concat]
        simp [hk]
      rw [hsame, ih]

end Registry

namespace Champion

/-! ## Abilities and keys of a champion -/

section

variable (name : String) (sheet : ChampionSheet) (bundle : Bundle)

/-- The ability of a spell that has an id and data. -/
def spellAbility? (spell : SpellSheet) : Option Ability := do
  let id ← spell.id.filter (!·.isEmpty)
  let data ← bundle.findSpell? id
  return .ofRecords id spell data

/-- The passive ability, if its script has data. -/
def passiveAbility? : Option Ability :=
  (bundle.findSpell? (passiveScript (idOf name sheet) sheet)).map fun data =>
    .ofRecords passiveKey .empty data

/-- How many spells before a slot have an ability. -/
def place (slot : Nat) : Nat :=
  (sheet.spells.take slot).countP fun spell => (spellAbility? bundle spell).isSome

/-- The ability in a position has a key. The letter of a spell is that of its slot, wherever
its ability stands. -/
inductive HasKey : Nat → String → Prop
  | id {slot : Nat} {key : String} :
    IsIdKey sheet bundle slot key → HasKey (place sheet bundle slot) key
  | letter {slot : Nat} {key : String} :
    IsPlaceKey name sheet bundle slot key → HasKey (place sheet bundle slot) key
  | passive {key : String} :
    IsPassiveKey name sheet bundle key → HasKey (place sheet bundle sheet.spells.length) key

/-- The champion has the abilities of its spells and its passive one, and they are found
under their keys. -/
structure IsRegistered (c : Champion) : Prop where
  /-- Every spell with an id and data has its ability, in order, and the passive one is last. -/
  abilities_eq : c.abilities
    = sheet.spells.filterMap (spellAbility? bundle) ++ (passiveAbility? name sheet bundle).toList
  spell_at {slot : Nat} {id : String} {spell : SpellSheet} {data : SpellData} :
    IsSpell sheet bundle slot id spell data →
      c.abilities[place sheet bundle slot]? = some (.ofRecords id spell data)
  passive_at {a : Ability} : passiveAbility? name sheet bundle = some a →
    c.abilities[place sheet bundle sheet.spells.length]? = some a
  /-- No ability is listed but these. -/
  listed {p : Nat} : p < c.abilities.length →
    (∃ slot id spell data, IsSpell sheet bundle slot id spell data ∧
      place sheet bundle slot = p) ∨
    (passiveAbility? name sheet bundle).isSome = true ∧ place sheet bundle sheet.spells.length = p
  /-- No key is left out : it leads to an ability that has it, or to one behind. -/
  registered {p : Nat} {key : String} : HasKey name sheet bundle p key →
    ∃ q, p ≤ q ∧ c.positions.get? key = some q
  /-- A key leads to the last ability that has it. -/
  position_iff {key : String} {p : Nat} :
    c.positions.get? key = some p ↔ IsGreatest {q | HasKey name sheet bundle q key} p
  /-- What a key leads to is in the list. -/
  ability_at {key : String} {p : Nat} : c.positions.get? key = some p →
    ∃ a, c.abilities[p]? = some a ∧ c.ability? key = some a
  ability_none_iff {key : String} : c.ability? key = none ↔ ∀ p, ¬ HasKey name sheet bundle p key
  /-- The letter of a slot belongs to the spell in this slot, whichever others have no data. -/
  letter_iff {slot other : Nat} {letter : String} : slotLetters[slot]? = some letter →
    (IsPlaceKey name sheet bundle other letter ↔
      other = slot ∧ ∃ id spell data, IsSpell sheet bundle slot id spell data)

end

section

variable {name slug key : String} {sheet : ChampionSheet} {bundle : Bundle} {p : Nat}

/-- The ability of a spell is that of its registration. -/
theorem spellAbility?_eq (slug : String) (bundle : Bundle) (slot : Nat) (spell : SpellSheet) :
    spellAbility? bundle spell = (spellRegistration? slug bundle slot spell).map (·.ability) := by
  simp only [spellAbility?, spellRegistration?, Option.bind_eq_bind, Option.map_bind,
    Function.comp_def, Option.pure_def, Option.map_some]

theorem passiveAbility?_eq (name : String) (sheet : ChampionSheet) (bundle : Bundle) :
    passiveAbility? name sheet bundle
      = (passiveRegistration? bundle (passiveScript (idOf name sheet) sheet)).map (·.ability) := by
  rw [passiveAbility?, passiveRegistration?, Option.map_map]
  rfl

/-- The abilities of the spells are registered in their order. -/
theorem map_ability_spellRegistrations : ∀ (start : Nat) (spells : List SpellSheet),
    (spellRegistrations slug bundle start spells).map (·.ability)
      = spells.filterMap (spellAbility? bundle)
  | _, [] => rfl
  | start, spell :: spells => by
    rw [spellRegistrations, List.map_append, map_ability_spellRegistrations, List.filterMap_cons,
      spellAbility?_eq slug bundle start]
    cases spellRegistration? slug bundle start spell <;> rfl

/-- The registrations of spells stand behind those of the spells before them. -/
theorem getElem?_spellRegistrations {r : Registration} :
    ∀ {start : Nat} {spells : List SpellSheet} {p : Nat},
      (spellRegistrations slug bundle start spells)[p]? = some r ↔
        ∃ k spell, spells[k]? = some spell ∧
          spellRegistration? slug bundle (start + k) spell = some r ∧
          ((spells.take k).countP fun s => (spellAbility? bundle s).isSome) = p
  | start, [], p => by simp [spellRegistrations]
  | start, spell :: spells, p => by
    -- Either the spell at hand is the one in slot `k`, or one of the others in slot `k + 1`, which
    -- stands one further back in the list if the spell at hand has an ability.
    have hshift : ∀ k, start + 1 + k = start + (k + 1) := fun k => by omega
    rw [← Nat.or_exists_add_one, spellRegistrations]
    simp only [List.getElem?_cons_zero, List.getElem?_cons_succ, Option.some.injEq,
      exists_eq_left', Nat.add_zero, List.take_zero, List.countP_nil, List.take_succ_cons,
      List.countP_cons, spellAbility?_eq slug bundle start spell, Option.isSome_map]
    cases spellRegistration? slug bundle start spell with
    | none => simp [getElem?_spellRegistrations, hshift]
    | some first =>
      cases p with
      | zero => simp
      | succ p => simp [getElem?_spellRegistrations, hshift]

theorem length_spellRegistrations (slug : String) (sheet : ChampionSheet) (bundle : Bundle) :
    (spellRegistrations slug bundle 0 sheet.spells).length
      = place sheet bundle sheet.spells.length := by
  rw [place, List.take_length, ← List.length_filterMap_eq_countP,
    ← @map_ability_spellRegistrations slug bundle 0, List.length_map]

/-- A spell with data is registered in its place, and the passive ability behind all of them. -/
theorem getElem?_registrations {r : Registration} :
    (registrations name sheet bundle)[p]? = some r ↔
      (∃ slot id spell data, IsSpell sheet bundle slot id spell data ∧
        ⟨.ofRecords id spell data, spellKeys (Name.slug (idOf name sheet)) slot id⟩ = r ∧
        place sheet bundle slot = p) ∨
      ∃ data, bundle.findSpell? (passiveScript (idOf name sheet) sheet) = some data ∧
        ⟨.ofRecords passiveKey .empty data,
          [passiveKey, Name.slug (passiveScript (idOf name sheet) sheet)]⟩ = r ∧
        place sheet bundle sheet.spells.length = p := by
  rw [registrations, Registry.getElem?_append_toList, getElem?_spellRegistrations,
    length_spellRegistrations, passiveRegistration?, Option.map_eq_some_iff]
  simp only [Nat.zero_add, spellRegistration?_eq_some_iff]
  refine or_congr ?_ ?_
  · constructor
    · rintro ⟨slot, spell, hs, ⟨id, data, hid, hd, rfl⟩, hp⟩
      exact ⟨slot, id, spell, data, ⟨hs, hid, hd⟩, rfl, hp⟩
    · rintro ⟨slot, id, spell, data, ⟨hs, hid, hd⟩, rfl, hp⟩
      exact ⟨slot, spell, hs, ⟨id, data, hid, hd, rfl⟩, hp⟩
  · constructor
    · rintro ⟨⟨data, hd, rfl⟩, hp⟩
      exact ⟨data, hd, rfl, hp.symm⟩
    · rintro ⟨data, hd, rfl, hp⟩
      exact ⟨⟨data, hd, rfl⟩, hp.symm⟩

/-- The holders of a key are the abilities that have the key. -/
theorem mem_holders_registrations :
    p ∈ Registry.holders (registrations name sheet bundle) key ↔
      HasKey name sheet bundle p key := by
  constructor
  · rintro ⟨r, hr, hk⟩
    rcases getElem?_registrations.1 hr with
      ⟨slot, id, spell, data, h, rfl, rfl⟩ | ⟨data, hd, rfl, rfl⟩
    · rcases mem_spellKeys.1 hk with hk | ⟨letter, hl, hk⟩
      · exact .id ⟨id, spell, data, h, hk⟩
      · exact .letter ⟨id, spell, data, letter, h, hl, hk⟩
    · exact .passive ⟨⟨data, hd⟩, by simpa using hk⟩
  · rintro (⟨id, spell, data, h, hk⟩ | ⟨id, spell, data, letter, h, hl, hk⟩ | ⟨⟨data, hd⟩, hk⟩)
    · exact ⟨_, getElem?_registrations.2 (.inl ⟨_, id, spell, data, h, rfl, rfl⟩),
        mem_spellKeys.2 (.inl hk)⟩
    · exact ⟨_, getElem?_registrations.2 (.inl ⟨_, id, spell, data, h, rfl, rfl⟩),
        mem_spellKeys.2 (.inr ⟨letter, hl, hk⟩)⟩
    · exact ⟨_, getElem?_registrations.2 (.inr ⟨data, hd, rfl, rfl⟩), by simpa using hk⟩

/-- A key has a holder if it belongs to a spell, to a slot or to the passive ability. -/
theorem exists_hasKey :
    (∃ p, HasKey name sheet bundle p key) ↔
      (∃ slot, IsIdKey sheet bundle slot key ∨ IsPlaceKey name sheet bundle slot key) ∨
        IsPassiveKey name sheet bundle key := by
  constructor
  · rintro ⟨p, h | h | h⟩
    · exact .inl ⟨_, .inl h⟩
    · exact .inl ⟨_, .inr h⟩
    · exact .inr h
  · rintro (⟨slot, h | h⟩ | h)
    · exact ⟨_, .id h⟩
    · exact ⟨_, .letter h⟩
    · exact ⟨_, .passive h⟩

/-- A key leads to the last of its holders. -/
theorem position_eq_some_iff (baseRecord : Json) :
    (ofRecords name sheet bundle baseRecord).positions.get? key = some p ↔
      IsGreatest {q | HasKey name sheet bundle q key} p := by
  have hset : Registry.holders (registrations name sheet bundle) key
      = {q | HasKey name sheet bundle q key} :=
    Set.ext fun q => mem_holders_registrations
  rw [← hset]
  exact Registry.get?_positions_eq_some_iff

/-- A key leads nowhere if and only if it has no holder. -/
theorem ability?_eq_none_iff_hasKey (baseRecord : Json) :
    (ofRecords name sheet bundle baseRecord).ability? key = none ↔
      ∀ p, ¬ HasKey name sheet bundle p key := by
  rw [ability?_eq_none_iff, ← not_exists, exists_hasKey, not_or, not_exists]
  simp only [not_or]

/-- What a key leads to is in the list. -/
theorem ability?_of_position (c : Champion) (h : c.positions.get? key = some p) :
    ∃ a, c.abilities[p]? = some a ∧ c.ability? key = some a := by
  have hp := List.getElem?_eq_getElem (c.inside h)
  refine ⟨_, hp, ?_⟩
  rw [ability?, Registry.ability?_eq_bind, h, Option.bind_some, hp]

/-- The abilities of a champion and what its keys lead to. -/
theorem isRegistered_ofRecords (name : String) (sheet : ChampionSheet) (bundle : Bundle)
    (baseRecord : Json) :
    IsRegistered name sheet bundle (ofRecords name sheet bundle baseRecord) := by
  have habilities : (ofRecords name sheet bundle baseRecord).abilities
      = (registrations name sheet bundle).map (·.ability) :=
    Registry.abilities_ofRegistrations _
  have hat : ∀ {p : Nat} {r : Registration}, (registrations name sheet bundle)[p]? = some r →
      (ofRecords name sheet bundle baseRecord).abilities[p]? = some r.ability := fun h => by
    rw [habilities, List.getElem?_map, h, Option.map_some]
  constructor
  case abilities_eq =>
    rw [habilities, registrations, List.map_append, map_ability_spellRegistrations,
      passiveAbility?_eq]
    cases passiveRegistration? bundle (passiveScript (idOf name sheet) sheet) <;> rfl
  case spell_at =>
    intro slot id spell data h
    exact hat (getElem?_registrations.2 (.inl ⟨slot, id, spell, data, h, rfl, rfl⟩))
  case passive_at =>
    intro a h
    obtain ⟨data, hd, rfl⟩ := Option.map_eq_some_iff.1 h
    exact hat (getElem?_registrations.2 (.inr ⟨data, hd, rfl, rfl⟩))
  case listed =>
    intro p hp
    rw [habilities, List.length_map] at hp
    rcases getElem?_registrations.1 (List.getElem?_eq_getElem hp) with
      ⟨slot, id, spell, data, h, -, hplace⟩ | ⟨data, hd, -, hplace⟩
    · exact .inl ⟨slot, id, spell, data, h, hplace⟩
    · exact .inr ⟨by rw [passiveAbility?, hd]; rfl, hplace⟩
  case registered =>
    intro p key h
    cases hq : (ofRecords name sheet bundle baseRecord).positions.get? key with
    | some q => exact ⟨q, ((position_eq_some_iff baseRecord).1 hq).2 h, rfl⟩
    | none =>
      have hnone : (ofRecords name sheet bundle baseRecord).ability? key = none := by
        rw [ability?, Registry.ability?_eq_bind, hq, Option.bind_none]
      exact absurd h ((ability?_eq_none_iff_hasKey baseRecord).1 hnone p)
  case position_iff => exact position_eq_some_iff baseRecord
  case ability_at => exact ability?_of_position _
  case ability_none_iff => exact ability?_eq_none_iff_hasKey baseRecord
  case letter_iff =>
    intro slot other letter hl
    constructor
    · intro h
      obtain rfl : other = slot := by
        by_contra hne
        exact not_isPlaceKey_of_ne hl (Ne.symm hne) h
      obtain ⟨id, spell, data, -, h, -⟩ := h
      exact ⟨rfl, id, spell, data, h⟩
    · rintro ⟨rfl, id, spell, data, h⟩
      exact ⟨id, spell, data, letter, h, hl, .inl rfl⟩

end

end Champion

end SpellText
