import SpellText.Champion

/-!
# Keys of abilities

Abilities are found by key, and a key that comes again belongs to the later ability.
Spells whose ids differ as slugs do not take each other's ids. A slot therefore has the
ability of its own spell unless something else goes by the id : a later slot by its letter,
with or without the champion's slug before it, or the passive ability, whose script may
have any name (`Champion.IsTaken`). Where the spell has no data its slot has no ability
unless one of its keys belongs to something else.

`Champion.abilityOfSlot?_own` says this for all slots, and `Champion.exists_taken_slot` that
such things happen : a passive script with the name of a spell takes its slot. The proofs look
keys up in one table of all abilities (`Champion.keyTable`), which has under each of them what
the registry finds (`Champion.ability?_foldl_register`).
-/

namespace SpellText

open Text (lowercased lowercase)

/-! ## Names -/

namespace Name

/-- A name that is a slug in lower case already has that slug. -/
theorem slug_eq_of_lowercased {a b : String} (h : lowercased a = slug b) : slug a = slug b := by
  have hl : lowercase a.toList = (lowercase b.toList).filter isKeyChar := by
    simpa only [lowercased, slug, String.toList_ofList] using congrArg String.toList h
  rw [slug, slug, hl, List.filter_filter]
  simp

/-- Names that are the same in lower case have the same slug. -/
theorem slug_congr {a b : String} (h : lowercased a = lowercased b) : slug a = slug b := by
  have hl : lowercase a.toList = lowercase b.toList := by
    simpa only [lowercased, String.toList_ofList] using congrArg String.toList h
  rw [slug, slug, hl]

end Name

namespace Champion

/-! ## The table of keys -/

/-- The abilities under their keys, later registrations before earlier ones. -/
def keyTable (rs : List Registration) : Table Ability :=
  .ofList (rs.flatMap fun r => r.keys.map (·, r.ability))

section

variable {rs : List Registration} {key : String}

/-- Later registrations go before earlier ones. -/
theorem get?_keyTable_append (rs rs' : List Registration) (key : String) :
    (keyTable (rs ++ rs')).get? key = ((keyTable rs').get? key).or ((keyTable rs).get? key) := by
  rw [keyTable, List.flatMap_append, Table.get?_ofList_append]
  rfl

/-- A key leads nowhere if and only if nothing is registered under it. -/
theorem get?_keyTable_eq_none_iff :
    (keyTable rs).get? key = none ↔ ∀ r ∈ rs, key ∉ r.keys := by
  rw [keyTable, Table.get?_ofList_eq_none_iff]
  simp [List.map_flatMap]

/-- A key leads to an ability that is registered under it. -/
theorem exists_of_get?_keyTable {a : Ability} (h : (keyTable rs).get? key = some a) :
    ∃ r ∈ rs, key ∈ r.keys ∧ r.ability = a := by
  obtain ⟨r, hr, hm⟩ := List.mem_flatMap.1 (Table.mem_of_get?_ofList h)
  obtain ⟨k, hk, he⟩ := List.mem_map.1 hm
  cases he
  exact ⟨r, hr, hk, rfl⟩

theorem get?_keyTable_singleton {r : Registration} (h : key ∈ r.keys) :
    (keyTable [r]).get? key = some r.ability := by
  cases hr : (keyTable [r]).get? key with
  | none => exact absurd h (get?_keyTable_eq_none_iff.1 hr r List.mem_cons_self)
  | some a =>
    obtain ⟨r', hr', -, rfl⟩ := exists_of_get?_keyTable hr
    rw [List.mem_singleton.1 hr']

theorem get?_keyTable_singleton_eq_ite (r : Registration) (key : String) :
    (keyTable [r]).get? key = if key ∈ r.keys then some r.ability else none := by
  split
  · next h => exact get?_keyTable_singleton h
  · next h => exact get?_keyTable_eq_none_iff.2 fun r' hr' => by rwa [List.mem_singleton.1 hr']

/-- Registering finds what the table has, else what was registered before. -/
theorem ability?_foldl_register (g : Registry) (rs : List Registration) (key : String) :
    (rs.foldl Registry.register g).ability? key
      = ((keyTable rs).get? key).or (g.ability? key) := by
  induction rs generalizing g with
  | nil => rfl
  | cons r rs ih =>
    rw [List.foldl_cons, ih, Registry.ability?_register, ← List.singleton_append,
      get?_keyTable_append, get?_keyTable_singleton_eq_ite, Option.or_assoc]
    congr 1
    split <;> rfl

end

/-! ## Registrations -/

section

variable {slug : String} {bundle : Bundle}

/-- A spell is registered if it has an identifier and data under it. -/
theorem spellRegistration?_eq_some_iff {slot : Nat} {spell : SpellSheet} {r : Registration} :
    spellRegistration? slug bundle slot spell = some r ↔
      ∃ id data, spell.id = some id ∧ bundle.findSpell? id = some data ∧
        ⟨.ofRecords id spell data, spellKeys slug slot id⟩ = r := by
  have hempty : bundle.findSpell? "" = none := rfl
  simp only [spellRegistration?, Option.bind_eq_bind, Option.bind_eq_some_iff,
    Option.filter_eq_some_iff, Option.pure_def, Option.some.injEq]
  constructor
  · rintro ⟨id, ⟨hid, -⟩, data, hd, rfl⟩
    exact ⟨id, data, hid, hd, rfl⟩
  · rintro ⟨id, data, hid, hd, rfl⟩
    refine ⟨id, ⟨hid, ?_⟩, data, hd, rfl⟩
    rw [Bool.not_eq_true', Bool.eq_false_iff]
    intro he
    rw [String.isEmpty_iff.1 he, hempty] at hd
    cases hd

theorem spellRegistrations_append : ∀ (start : Nat) (spells spells' : List SpellSheet),
    spellRegistrations slug bundle start (spells ++ spells')
      = spellRegistrations slug bundle start spells
        ++ spellRegistrations slug bundle (start + spells.length) spells'
  | _, [], _ => rfl
  | start, spell :: spells, spells' => by
    rw [List.cons_append, spellRegistrations, spellRegistrations_append, spellRegistrations,
      List.append_assoc, List.length_cons, Nat.add_assoc, Nat.add_comm 1]

theorem mem_spellRegistrations {r : Registration} : ∀ {start : Nat} {spells : List SpellSheet},
    r ∈ spellRegistrations slug bundle start spells ↔
      ∃ k spell, spells[k]? = some spell ∧ spellRegistration? slug bundle (start + k) spell = some r
  | start, [] => by simp [spellRegistrations]
  | start, spell :: spells => by
    rw [spellRegistrations, List.mem_append, Option.mem_toList, mem_spellRegistrations]
    constructor
    · rintro (h | ⟨k, spell', hk, h⟩)
      · exact ⟨0, spell, rfl, h⟩
      · exact ⟨k + 1, spell', hk, by rwa [Nat.add_comm k, ← Nat.add_assoc]⟩
    · rintro ⟨k, spell', hk, h⟩
      cases k with
      | zero =>
        cases hk
        exact .inl h
      | succ k => exact .inr ⟨k, spell', hk, by rwa [Nat.add_assoc, Nat.add_comm 1]⟩

end

/-! ## Whose keys -/

/-- Every spell has an id, and the ids differ as slugs. -/
structure HasDistinctIds (sheet : ChampionSheet) : Prop where
  named : ∀ spell ∈ sheet.spells, ∃ id, spell.id = some id ∧ id ≠ ""
  distinct : (sheet.spells.map fun spell => Name.slug (spell.id.getD "")).Nodup

section

variable (name : String) (sheet : ChampionSheet) (bundle : Bundle)

/-- The spell in a slot, which has an id and data. -/
structure IsSpell (slot : Nat) (id : String) (spell : SpellSheet) (data : SpellData) : Prop where
  at_slot : sheet.spells[slot]? = some spell
  has_id : spell.id = some id
  has_data : bundle.findSpell? id = some data

/-- A key that the spell in a slot has by its id. -/
def IsIdKey (slot : Nat) (key : String) : Prop :=
  ∃ id spell data, IsSpell sheet bundle slot id spell data ∧
    (key = lowercased id ∨ key = Name.slug id)

/-- A key that the spell in a slot has by its place : the letter of the slot, alone or
behind the champion's slug. -/
def IsPlaceKey (slot : Nat) (key : String) : Prop :=
  ∃ id spell data letter, IsSpell sheet bundle slot id spell data ∧
    slotLetters[slot]? = some letter ∧ (key = letter ∨ key = Name.slug (idOf name sheet) ++ letter)

/-- A key of the passive ability. -/
def IsPassiveKey (key : String) : Prop :=
  (∃ data, bundle.findSpell? (passiveScript (idOf name sheet) sheet) = some data) ∧
    (key = passiveKey ∨ key = Name.slug (passiveScript (idOf name sheet) sheet))

/-- A key of a later slot by its place, or of the passive ability. -/
def IsTaken (slot : Nat) (key : String) : Prop :=
  (∃ later, slot < later ∧ IsPlaceKey name sheet bundle later key) ∨
    IsPassiveKey name sheet bundle key

/-- A key that no spell has by its place and that is none of the passive ability. -/
def IsFreeKey (key : String) : Prop :=
  (∀ slot, ¬ IsPlaceKey name sheet bundle slot key) ∧ ¬ IsPassiveKey name sheet bundle key

/-- The letter of the slot, if it has one, is no id and no key of the passive ability. -/
def HasFreeLetter (slot : Nat) : Prop :=
  ∀ letter, slotLetters[slot]? = some letter →
    (∀ other, ¬ IsIdKey sheet bundle other letter) ∧ ¬ IsPassiveKey name sheet bundle letter

/-- The registrations of the spells from a slot on and of the passive ability. -/
def registrationsFrom (start : Nat) : List Registration :=
  spellRegistrations (Name.slug (idOf name sheet)) bundle start (sheet.spells.drop start)
    ++ (passiveRegistration? bundle (passiveScript (idOf name sheet) sheet)).toList

end

section

variable {name : String} {sheet : ChampionSheet} {bundle : Bundle} {slot : Nat} {key : String}

/-- The keys of a spell are those of its identifier and those of its slot. -/
theorem mem_spellKeys {slug id : String} :
    key ∈ spellKeys slug slot id ↔ (key = lowercased id ∨ key = Name.slug id) ∨
      ∃ letter, slotLetters[slot]? = some letter ∧ (key = letter ∨ key = slug ++ letter) := by
  rw [spellKeys, List.mem_append]
  refine or_congr (by simp) ?_
  cases slotLetters[slot]? <;> simp

theorem mem_spellRegistrations_drop {slug : String} {start : Nat} {r : Registration} :
    r ∈ spellRegistrations slug bundle start (sheet.spells.drop start) ↔
      ∃ slot id spell data, start ≤ slot ∧ IsSpell sheet bundle slot id spell data ∧
        ⟨.ofRecords id spell data, spellKeys slug slot id⟩ = r := by
  simp only [mem_spellRegistrations, spellRegistration?_eq_some_iff, List.getElem?_drop]
  constructor
  · rintro ⟨k, spell, hk, id, data, hid, hd, rfl⟩
    exact ⟨start + k, id, spell, data, Nat.le_add_right _ _, ⟨hk, hid, hd⟩, rfl⟩
  · rintro ⟨slot, id, spell, data, hle, ⟨hk, hid, hd⟩, rfl⟩
    obtain ⟨k, rfl⟩ := Nat.exists_eq_add_of_le hle
    exact ⟨k, spell, hk, id, data, hid, hd, rfl⟩

/-- What is registered from a slot on are spells, and the passive ability at last. -/
theorem mem_registrationsFrom {start : Nat} {r : Registration} :
    r ∈ registrationsFrom name sheet bundle start ↔
      (∃ slot id spell data, start ≤ slot ∧ IsSpell sheet bundle slot id spell data ∧
        ⟨.ofRecords id spell data, spellKeys (Name.slug (idOf name sheet)) slot id⟩ = r) ∨
      ∃ data, bundle.findSpell? (passiveScript (idOf name sheet) sheet) = some data ∧
        ⟨.ofRecords passiveKey .empty data,
          [passiveKey, Name.slug (passiveScript (idOf name sheet) sheet)]⟩ = r := by
  rw [registrationsFrom, List.mem_append, mem_spellRegistrations_drop, Option.mem_toList,
    passiveRegistration?, Option.map_eq_some_iff]

/-- Keys come from the ids and places of the spells with data and from the passive ability. -/
theorem exists_mem_registrationsFrom {start : Nat} :
    (∃ r ∈ registrationsFrom name sheet bundle start, key ∈ r.keys) ↔
      (∃ slot, start ≤ slot ∧
        (IsIdKey sheet bundle slot key ∨ IsPlaceKey name sheet bundle slot key)) ∨
      IsPassiveKey name sheet bundle key := by
  constructor
  · rintro ⟨r, hr, hk⟩
    rcases mem_registrationsFrom.1 hr with ⟨slot, id, spell, data, hle, h, rfl⟩ | ⟨data, hd, rfl⟩
    · rcases mem_spellKeys.1 hk with hk | ⟨letter, hl, hk⟩
      · exact .inl ⟨slot, hle, .inl ⟨id, spell, data, h, hk⟩⟩
      · exact .inl ⟨slot, hle, .inr ⟨id, spell, data, letter, h, hl, hk⟩⟩
    · exact .inr ⟨⟨data, hd⟩, by simpa using hk⟩
  · rintro (⟨slot, hle, hk⟩ | ⟨⟨data, hd⟩, hk⟩)
    · rcases hk with ⟨id, spell, data, h, hk⟩ | ⟨id, spell, data, letter, h, hl, hk⟩
      · exact ⟨_, mem_registrationsFrom.2 (.inl ⟨slot, id, spell, data, hle, h, rfl⟩),
          mem_spellKeys.2 (.inl hk)⟩
      · exact ⟨_, mem_registrationsFrom.2 (.inl ⟨slot, id, spell, data, hle, h, rfl⟩),
          mem_spellKeys.2 (.inr ⟨letter, hl, hk⟩)⟩
    · exact ⟨_, mem_registrationsFrom.2 (.inr ⟨data, hd, rfl⟩), by simpa using hk⟩

theorem registrations_eq_registrationsFrom :
    registrations name sheet bundle = registrationsFrom name sheet bundle 0 :=
  rfl

/-- What is registered before a slot, by the slot and behind it. -/
theorem registrations_split (name : String) (bundle : Bundle) {spell : SpellSheet}
    (h : sheet.spells[slot]? = some spell) : ∃ front, registrations name sheet bundle
      = front ++ (spellRegistration? (Name.slug (idOf name sheet)) bundle slot spell).toList
        ++ registrationsFrom name sheet bundle (slot + 1) := by
  obtain ⟨hlt, rfl⟩ := List.getElem?_eq_some_iff.1 h
  refine ⟨spellRegistrations (Name.slug (idOf name sheet)) bundle 0 (sheet.spells.take slot), ?_⟩
  have hs : sheet.spells
      = sheet.spells.take slot ++ sheet.spells[slot] :: sheet.spells.drop (slot + 1) := by
    rw [← List.drop_eq_getElem_cons hlt, List.take_append_drop]
  have hl : 0 + (sheet.spells.take slot).length = slot := by
    rw [Nat.zero_add, List.length_take, Nat.min_eq_left (Nat.le_of_lt hlt)]
  show spellRegistrations _ bundle 0 sheet.spells ++ _ = _
  conv => lhs; rw [hs]
  rw [spellRegistrations_append, hl, spellRegistrations, registrationsFrom]
  simp only [List.append_assoc]

/-- No key of the spells from a slot on and of the passive ability. -/
theorem get?_registrationsFrom_eq_none_iff {start : Nat} :
    (keyTable (registrationsFrom name sheet bundle start)).get? key = none ↔
      (∀ slot, start ≤ slot →
        ¬ IsIdKey sheet bundle slot key ∧ ¬ IsPlaceKey name sheet bundle slot key) ∧
      ¬ IsPassiveKey name sheet bundle key := by
  rw [get?_keyTable_eq_none_iff]
  have h := not_congr (@exists_mem_registrationsFrom name sheet bundle key start)
  simpa only [not_exists, not_and, not_or] using h

/-- Under the id of a spell, only later abilities go before its own. -/
theorem get?_keyTable_own (name : String) {id : String} {spell : SpellSheet} {data : SpellData}
    (h : IsSpell sheet bundle slot id spell data) :
    (keyTable (registrations name sheet bundle)).get? (lowercased id)
      = ((keyTable (registrationsFrom name sheet bundle (slot + 1))).get? (lowercased id)).or
        (some (.ofRecords id spell data)) := by
  obtain ⟨front, hr⟩ := registrations_split name bundle h.at_slot
  have hown : spellRegistration? (Name.slug (idOf name sheet)) bundle slot spell
      = some ⟨.ofRecords id spell data, spellKeys (Name.slug (idOf name sheet)) slot id⟩ :=
    spellRegistration?_eq_some_iff.2 ⟨id, data, h.has_id, h.has_data, rfl⟩
  have hkey : lowercased id ∈ spellKeys (Name.slug (idOf name sheet)) slot id :=
    mem_spellKeys.2 (.inl (.inl rfl))
  rw [hr, get?_keyTable_append, get?_keyTable_append, hown, Option.toList_some,
    get?_keyTable_singleton hkey, Option.some_or]

end

/-! ## Slots -/

section

variable {name : String} {sheet : ChampionSheet} {bundle : Bundle} {slot : Nat} {key : String}

/-- Identifiers that share a key have the same slug. -/
theorem slug_eq_of_idKey {a b : String} (ha : key = lowercased a ∨ key = Name.slug a)
    (hb : key = lowercased b ∨ key = Name.slug b) : Name.slug a = Name.slug b := by
  rcases ha with rfl | rfl
  · exact hb.elim Name.slug_congr Name.slug_eq_of_lowercased
  · exact hb.elim (fun h => (Name.slug_eq_of_lowercased h.symm).symm) id

variable (hs : HasDistinctIds sheet)
include hs

/-- Two slots whose ids have the same slug are the same. -/
theorem slot_eq_of_slug {other : Nat} {spell spell' : SpellSheet} {id id' : String}
    (h : sheet.spells[slot]? = some spell) (hid : spell.id = some id)
    (h' : sheet.spells[other]? = some spell') (hid' : spell'.id = some id')
    (he : Name.slug id = Name.slug id') : slot = other := by
  obtain ⟨hlt, -⟩ := List.getElem?_eq_some_iff.1 h
  refine (List.getElem?_inj (by rwa [List.length_map]) hs.distinct).1 ?_
  simp [h, h', hid, hid', he]

/-- Spells in other slots do not have the keys of an id. -/
theorem not_isIdKey_of_ne {other : Nat} {spell : SpellSheet} {id : String}
    (h : sheet.spells[slot]? = some spell) (hid : spell.id = some id)
    (hk : key = lowercased id ∨ key = Name.slug id) (hne : slot ≠ other) :
    ¬ IsIdKey sheet bundle other key := by
  rintro ⟨id', spell', data', h', hk'⟩
  exact hne (slot_eq_of_slug hs h hid h'.at_slot h'.has_id (slug_eq_of_idKey hk hk'))

end

section

variable {name : String} {sheet : ChampionSheet} {bundle : Bundle} {slot : Nat} {key : String}

theorem length_slotLetter {letter : String} (h : slotLetters[slot]? = some letter) :
    letter.length = 1 := by
  have hall : ∀ letter ∈ slotLetters, letter.length = 1 := by decide
  exact hall letter (List.mem_of_getElem? h)

/-- The letter of a slot is no key of another one by its place. -/
theorem not_isPlaceKey_of_ne {letter : String} (hl : slotLetters[slot]? = some letter)
    {other : Nat} (hne : slot ≠ other) : ¬ IsPlaceKey name sheet bundle other letter := by
  rintro ⟨id, spell, data, letter', -, hl', hk⟩
  have he : letter = letter' := by
    refine hk.elim (fun h => h) fun hk => ?_
    have hlen := congrArg String.length hk
    rw [String.length_append, length_slotLetter hl, length_slotLetter hl'] at hlen
    rw [hk, String.length_eq_zero_iff.1 (by omega : (Name.slug (idOf name sheet)).length = 0)]
    exact String.empty_append
  obtain ⟨hlt, -⟩ := List.getElem?_eq_some_iff.1 hl
  exact hne ((List.getElem?_inj hlt (by decide)).1 (hl.trans (he ▸ hl'.symm)))

/-- The ability under a key is the one that was registered under it last. -/
theorem ability?_ofRecords (baseRecord : Json) (key : String) :
    (ofRecords name sheet bundle baseRecord).ability? key
      = (keyTable (registrations name sheet bundle)).get? key :=
  (ability?_foldl_register .empty (registrations name sheet bundle) key).trans Option.or_none

/-- A key leads nowhere if and only if it belongs to no spell, to no slot and not to the passive
ability. -/
theorem ability?_eq_none_iff (baseRecord : Json) :
    (ofRecords name sheet bundle baseRecord).ability? key = none ↔
      (∀ slot, ¬ IsIdKey sheet bundle slot key ∧ ¬ IsPlaceKey name sheet bundle slot key) ∧
        ¬ IsPassiveKey name sheet bundle key := by
  rw [ability?_ofRecords, registrations_eq_registrationsFrom, get?_registrationsFrom_eq_none_iff]
  simp only [Nat.zero_le, true_implies]

/-- Without data for its spell, the letter of a slot leads to an ability of something else. -/
theorem letter_eq_none_iff (baseRecord : Json)
    (hno : ∀ id spell data, ¬ IsSpell sheet bundle slot id spell data) :
    slotLetters[slot]?.bind (ofRecords name sheet bundle baseRecord).ability? = none ↔
      HasFreeLetter name sheet bundle slot := by
  rw [Option.bind_eq_none_iff]
  refine forall₂_congr fun letter hl => ?_
  rw [ability?_eq_none_iff]
  have hplace : ∀ other, ¬ IsPlaceKey name sheet bundle other letter := fun other => by
    by_cases he : slot = other
    · rintro ⟨id, spell, data, -, h, -⟩
      exact hno id spell data (he ▸ h)
    · exact not_isPlaceKey_of_ne hl he
  simp [hplace]

/-- Without data for a spell, its id leads to an ability only where something else has
it by its place. -/
theorem ability?_id_eq_none_iff (hs : HasDistinctIds sheet) (baseRecord : Json)
    (hno : ∀ id spell data, ¬ IsSpell sheet bundle slot id spell data)
    {spell : SpellSheet} {id : String} (h : sheet.spells[slot]? = some spell)
    (hid : spell.id = some id) (hk : key = lowercased id ∨ key = Name.slug id) :
    (ofRecords name sheet bundle baseRecord).ability? key = none ↔
      IsFreeKey name sheet bundle key := by
  have hids : ∀ other, ¬ IsIdKey sheet bundle other key := fun other => by
    by_cases he : slot = other
    · rintro ⟨id', spell', data', h', -⟩
      exact hno id' spell' data' (he ▸ h')
    · exact not_isIdKey_of_ne hs h hid hk he
  rw [ability?_eq_none_iff, IsFreeKey]
  simp [hids]

/-- The ability of a slot is looked up by the identifier of its spell and then by the letter of
the slot. -/
theorem abilityOfSlot?_eq (name : String) (bundle : Bundle) (baseRecord : Json)
    {spell : SpellSheet} {id : String} (h : sheet.spells[slot]? = some spell)
    (hid : spell.id = some id) : (ofRecords name sheet bundle baseRecord).abilityOfSlot? slot
      = (((ofRecords name sheet bundle baseRecord).ability? (lowercased id)).or
          ((ofRecords name sheet bundle baseRecord).ability? (Name.slug id))).or
        (slotLetters[slot]?.bind (ofRecords name sheet bundle baseRecord).ability?) := by
  have hids : (ofRecords name sheet bundle baseRecord).spellIds[slot]? = some id := by
    rw [ofRecords, List.getElem?_map, h, Option.map_some, hid, Option.getD_some]
  rw [abilityOfSlot?, hids, Option.bind_some, abilityOfId?]

/-- An ability that was registered for another spell or the passive has another name. -/
theorem ability_ne_of_mem_registrationsFrom (hs : HasDistinctIds sheet) {id : String}
    {spell : SpellSheet} {data : SpellData} (h : IsSpell sheet bundle slot id spell data)
    (hne : id ≠ passiveKey) {r : Registration}
    (hr : r ∈ registrationsFrom name sheet bundle (slot + 1)) :
    r.ability ≠ .ofRecords id spell data := by
  intro he
  have hname := congrArg Ability.name he
  rcases mem_registrationsFrom.1 hr with ⟨other, id', spell', data', hle, h', rfl⟩ | ⟨data', -, rfl⟩
  · have hid : id' = id := hname
    have := slot_eq_of_slug hs h.at_slot h.has_id h'.at_slot h'.has_id (congrArg Name.slug hid.symm)
    omega
  · exact hne hname.symm

/-- The id of a spell is taken if and only if something later is registered under it. -/
theorem get?_registrationsFrom_id_eq_none_iff (hs : HasDistinctIds sheet) {id : String}
    {spell : SpellSheet} (h : sheet.spells[slot]? = some spell) (hid : spell.id = some id) :
    (keyTable (registrationsFrom name sheet bundle (slot + 1))).get? (lowercased id) = none ↔
      ¬ IsTaken name sheet bundle slot (lowercased id) := by
  rw [get?_registrationsFrom_eq_none_iff, IsTaken, not_or, not_exists]
  refine and_congr_left fun _ => forall_congr' fun other => ?_
  rw [not_and]
  refine forall_congr' fun hlt => and_iff_right ?_
  exact not_isIdKey_of_ne hs h hid (.inl rfl) (Nat.ne_of_lt hlt)

/-- A slot whose spell has data has its ability, or a later one under the id. -/
theorem abilityOfSlot?_of_isSpell (name : String) (baseRecord : Json) {id : String}
    {spell : SpellSheet} {data : SpellData} (h : IsSpell sheet bundle slot id spell data) :
    (ofRecords name sheet bundle baseRecord).abilityOfSlot? slot
      = ((keyTable (registrationsFrom name sheet bundle (slot + 1))).get? (lowercased id)).or
        (some (.ofRecords id spell data)) := by
  have hown : (ofRecords name sheet bundle baseRecord).ability? (lowercased id) = _ :=
    (ability?_ofRecords baseRecord _).trans (get?_keyTable_own name h)
  rw [abilityOfSlot?_eq name bundle baseRecord h.at_slot h.has_id, hown]
  cases (keyTable (registrationsFrom name sheet bundle (slot + 1))).get? (lowercased id) <;> rfl

/-- A slot whose spell has data has the ability of this spell, unless a later slot or the
passive ability takes the id of the spell. Any other slot has no ability, unless something
goes by the id of its spell or by the letter of the slot. -/
theorem abilityOfSlot?_own (hs : HasDistinctIds sheet) (name : String) (bundle : Bundle)
    (baseRecord : Json) (slot : Nat) :
    (∀ id spell data, IsSpell sheet bundle slot id spell data →
        (¬ IsTaken name sheet bundle slot (lowercased id) →
          (ofRecords name sheet bundle baseRecord).abilityOfSlot? slot
            = some (.ofRecords id spell data)) ∧
        (IsTaken name sheet bundle slot (lowercased id) → id ≠ passiveKey →
          (ofRecords name sheet bundle baseRecord).abilityOfSlot? slot
            ≠ some (.ofRecords id spell data))) ∧
      ((∀ id spell data, ¬ IsSpell sheet bundle slot id spell data) →
        ((ofRecords name sheet bundle baseRecord).abilityOfSlot? slot = none ↔
          (∀ id spell, sheet.spells[slot]? = some spell → spell.id = some id →
            IsFreeKey name sheet bundle (lowercased id) ∧
              IsFreeKey name sheet bundle (Name.slug id)) ∧
          HasFreeLetter name sheet bundle slot)) := by
  refine ⟨fun id spell data h => ?_, fun hno => ?_⟩
  · have hiff := @get?_registrationsFrom_id_eq_none_iff name sheet bundle slot hs id spell
      h.at_slot h.has_id
    rw [abilityOfSlot?_of_isSpell name baseRecord h]
    refine ⟨fun ht => by rw [hiff.2 ht, Option.none_or], fun ht hne ho => ?_⟩
    obtain ⟨a, ha⟩ := Option.ne_none_iff_exists'.1 fun hn => hiff.1 hn ht
    obtain ⟨r, hr, -, rfl⟩ := exists_of_get?_keyTable ha
    rw [ha, Option.some_or] at ho
    exact ability_ne_of_mem_registrationsFrom hs h hne hr (Option.some.inj ho)
  · cases h : sheet.spells[slot]? with
    | none =>
      have hids : (ofRecords name sheet bundle baseRecord).spellIds[slot]? = none := by
        rw [ofRecords, List.getElem?_map, h, Option.map_none]
      rw [abilityOfSlot?, hids, Option.bind_none, Option.none_or, letter_eq_none_iff baseRecord hno]
      simp
    | some spell =>
      obtain ⟨id, hid, -⟩ := hs.named spell (List.mem_of_getElem? h)
      rw [abilityOfSlot?_eq name bundle baseRecord h hid, Option.or_eq_none_iff,
        Option.or_eq_none_iff, letter_eq_none_iff baseRecord hno,
        ability?_id_eq_none_iff hs baseRecord hno h hid (.inl rfl),
        ability?_id_eq_none_iff hs baseRecord hno h hid (.inr rfl)]
      simp [hid]

end

/-- The spell that `decoyBundle` has data for. -/
def decoy : SpellSheet := { SpellSheet.empty with id := some "MonkeyKingDecoy", cooldown := [22.0] }

/-- A champion with two spells and a passive script as given. -/
def decoySheet (passive : Option PassiveSheet) : ChampionSheet where
  id := some "MonkeyKing"
  spells := [decoy, { SpellSheet.empty with id := some "MonkeyKingNimbus" }]
  passive := passive
  stats := []

/-- Game data of that spell, without numbers. -/
def decoyBundle : Bundle :=
  ⟨[("Spells/MonkeyKingDecoy", .object [("mSpell", .object [])])]⟩

theorem hasDistinctIds_decoySheet (passive : Option PassiveSheet) :
    HasDistinctIds (decoySheet passive) where
  named := by simp [decoySheet, decoy]
  distinct := by
    show ["monkeykingdecoy", "monkeykingnimbus"].Nodup
    decide

theorem isSpell_decoy (passive : Option PassiveSheet) :
    IsSpell (decoySheet passive) decoyBundle 0 "MonkeyKingDecoy" decoy ⟨[], []⟩ :=
  ⟨rfl, rfl, rfl⟩

theorem not_isTaken_decoy :
    ¬ IsTaken "Wukong" (decoySheet none) decoyBundle 0 (lowercased "MonkeyKingDecoy") := by
  rintro (⟨later, -, id, spell, data, letter, -, hl, hk⟩ | ⟨⟨data, hd⟩, -⟩)
  · have hletter : ∀ letter ∈ slotLetters, lowercased "MonkeyKingDecoy" ≠ letter ∧
        lowercased "MonkeyKingDecoy" ≠ Name.slug (idOf "Wukong" (decoySheet none)) ++ letter := by
      decide
    obtain ⟨hne, hne'⟩ := hletter letter (List.mem_of_getElem? hl)
    exact hk.elim hne hne'
  · cases hd

theorem abilityOfSlot?_own_decoy :
    HasDistinctIds (decoySheet none) ∧
      (ofRecords "Wukong" (decoySheet none) decoyBundle .null).abilityOfSlot? 0
        = some (.ofRecords "MonkeyKingDecoy" decoy ⟨[], []⟩) :=
  ⟨hasDistinctIds_decoySheet none,
    ((abilityOfSlot?_own (hasDistinctIds_decoySheet none) "Wukong" decoyBundle .null 0).1 _ _ _
      (isSpell_decoy none)).1 not_isTaken_decoy⟩

/-- A passive script with the name of a spell takes its slot. -/
theorem exists_taken_slot :
    ¬ ∀ (name : String) (sheet : ChampionSheet) (bundle : Bundle) (baseRecord : Json),
      HasDistinctIds sheet → ∀ slot id spell data, IsSpell sheet bundle slot id spell data →
        (ofRecords name sheet bundle baseRecord).abilityOfSlot? slot
          = some (.ofRecords id spell data) := by
  intro h
  have hown := h "Wukong" (decoySheet (some ⟨some "MonkeyKingDecoy"⟩)) decoyBundle .null
    (hasDistinctIds_decoySheet _) 0 _ _ _ (isSpell_decoy _)
  have hpassive : ((ofRecords "Wukong" (decoySheet (some ⟨some "MonkeyKingDecoy"⟩)) decoyBundle
      .null).abilityOfSlot? 0).map Ability.name = some "passive" := by
    decide +kernel
  rw [hown] at hpassive
  exact absurd hpassive (by decide)

end Champion

end SpellText
