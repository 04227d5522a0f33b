import SpellText.Proofs.Braces
import SpellText.Proofs.Registrations

/-!
# Two ways to a spell

A slot is looked up by the lower case of the id of its spell, and only then by the id
without separators (`Champion.abilityOfId?`); a reference is looked up the other way round
(`Champion.findAbility?_eq_or`). The two ways lead apart where an ability behind has the id of
the spell without its separators for a key, but not the id itself : the ids `Ahri_Orb` and
`AhriOrb` of one champion are such a pair (`Champion.exists_parted_lookups`).

`Champion.lookups_of_isSpell` says what either way finds for the id of a spell, and that they
part in this case only.
-/

namespace SpellText

open Text (lowercased lowercase)

namespace Name

/-! ## Slugs -/

/-- The key is made of small letters and digits. -/
def IsSlug (key : String) : Prop := key.toList.all isKeyChar = true

instance (key : String) : Decidable (IsSlug key) :=
  inferInstanceAs (Decidable (key.toList.all isKeyChar = true))

/-- A slug has small letters and digits only. -/
theorem isSlug_slug (name : String) : IsSlug (slug name) := by
  rw [IsSlug, slug, String.toList_ofList, List.all_eq_true]
  exact fun c hc => (List.mem_filter.1 hc).2

/-- Slugs one after the other are a slug. -/
theorem isSlug_append {a b : String} (ha : IsSlug a) (hb : IsSlug b) : IsSlug (a ++ b) := by
  rw [IsSlug] at ha hb ⊢
  rw [String.toList_append, List.all_append, ha, hb, Bool.and_self]

/-- There is nothing to drop from a name whose lower case is a slug. -/
theorem slug_eq_lowercased {name : String} (h : IsSlug (lowercased name)) :
    slug name = lowercased name := by
  rw [IsSlug, lowercased, String.toList_ofList, List.all_eq_true] at h
  rw [slug, lowercased, List.filter_eq_self.2 h]

/-- A small letter or digit is its own lower case and that of its capital. -/
theorem toLower_of_isKeyChar {c : Char} (h : isKeyChar c = true) :
    c.toLower = c ∧ c.toUpper.toLower = c := by
  have hc : c.toNat < 128 := by
    simp only [isKeyChar, Text.isLower_iff, Text.isDigit_iff, Bool.or_eq_true] at h
    omega
  revert h
  exact Text.forall_ascii (p := fun c => isKeyChar c = true → c.toLower = c ∧ c.toUpper.toLower = c)
    (by decide) hc

/-- In lower case the capitals of camel-casing are gone. -/
theorem map_toLower_capitalizeRuns (fresh : Bool) (s : List Char) :
    (capitalizeRuns fresh s).map Char.toLower = s.filter isKeyChar := by
  induction s generalizing fresh with
  | nil => rfl
  | cons c s ih =>
    rw [capitalizeRuns, List.filter_cons]
    split
    · next hc =>
      obtain ⟨hlow, hup⟩ := toLower_of_isKeyChar hc
      rw [List.map_cons, ih]
      cases fresh
      · rw [if_neg Bool.false_ne_true, hlow]
      · rw [if_pos rfl, hup]
    · exact ih true

/-- Camel-casing and making small again drops the separators. -/
theorem camelLower_eq_slug (name : String) : camelLower name = slug name := by
  have hascii : ∀ c ∈ (camelCase name).toList, c.toNat < 128 := by
    intro c hc
    rw [camelCase, String.toList_ofList] at hc
    exact (isCamel_of_mem_capitalizeRuns hc).1
  rw [camelLower, lowercased, lowercase, Text.lowercaseAfter_ascii [] hascii, camelCase,
    String.toList_ofList, map_toLower_capitalizeRuns, slug]

end Name

namespace Champion

/-! ## The order of the keys -/

/-- A reference is looked up without its separators, and only then as it stands. -/
theorem findAbility?_eq_or (c : Champion) (reference : String) : c.findAbility? reference
    = (c.ability? (Name.slug reference)).or (c.ability? (lowercased reference)) := by
  simp only [findAbility?, Name.referenceSpellings, List.findSome?_cons, Name.Spelling.key,
    Name.camelLower_eq_slug, List.findSome?_nil]
  cases c.ability? (Name.slug reference) <;> cases c.ability? (lowercased reference) <;> rfl

section

variable {name : String} {sheet : ChampionSheet} {bundle : Bundle} {slot p : Nat}
  {key id : String}

/-- The keys of slots are slugs. -/
theorem isSlug_of_isPlaceKey (h : IsPlaceKey name sheet bundle slot key) : Name.IsSlug key := by
  obtain ⟨_, _, _, letter, -, hl, hk⟩ := h
  have hall : ∀ letter ∈ slotLetters, Name.IsSlug letter := by decide
  have hletter := hall letter (List.mem_of_getElem? hl)
  rcases hk with rfl | rfl
  · exact hletter
  · exact Name.isSlug_append (Name.isSlug_slug _) hletter

/-- The keys of the passive ability are slugs. -/
theorem isSlug_of_isPassiveKey (h : IsPassiveKey name sheet bundle key) : Name.IsSlug key := by
  obtain ⟨-, rfl | rfl⟩ := h
  · show Name.IsSlug passiveKey
    decide
  · exact Name.isSlug_slug _

/-- A key in lower case is that of a spell with the same id but for the case of its letters,
unless it is a slug. -/
theorem exists_isSpell_of_hasKey (h : HasKey name sheet bundle p (lowercased id)) :
    (∃ slot id' spell data, IsSpell sheet bundle slot id' spell data ∧
      place sheet bundle slot = p ∧ lowercased id' = lowercased id) ∨
    Name.slug id = lowercased id := by
  generalize hkey : lowercased id = key at h
  rcases h with ⟨id', spell, data, h, hk⟩ | h | h
  · rcases hk with rfl | rfl
    · exact .inl ⟨_, id', spell, data, h, rfl, rfl⟩
    · exact .inr (hkey ▸ Name.slug_eq_lowercased (hkey ▸ Name.isSlug_slug id'))
  · exact .inr (hkey ▸ Name.slug_eq_lowercased (hkey ▸ isSlug_of_isPlaceKey h))
  · exact .inr (hkey ▸ Name.slug_eq_lowercased (hkey ▸ isSlug_of_isPassiveKey h))

/-- What has an id for a key also has it without its separators. -/
theorem hasKey_slug (h : HasKey name sheet bundle p (lowercased id)) :
    HasKey name sheet bundle p (Name.slug id) := by
  rcases exists_isSpell_of_hasKey h with ⟨slot, id', spell, data, hs, rfl, hk⟩ | hk
  · exact .id ⟨id', spell, data, hs, .inr (Name.slug_congr hk.symm)⟩
  · rwa [hk]

/-- Abilities with one name share the lower case of an id as a key. -/
theorem hasKey_of_name_eq (baseRecord : Json) {q : Nat} {a b : Ability}
    (hp : HasKey name sheet bundle p (Name.slug id))
    (hq : HasKey name sheet bundle q (lowercased id))
    (ha : (ofRecords name sheet bundle baseRecord).abilities[p]? = some a)
    (hb : (ofRecords name sheet bundle baseRecord).abilities[q]? = some b)
    (hn : a.name = b.name) : HasKey name sheet bundle p (lowercased id) := by
  have hc := isRegistered_ofRecords name sheet bundle baseRecord
  rcases exists_isSpell_of_hasKey hq with ⟨slot, id', spell, data, hs, rfl, hk⟩ | hk
  · cases (hc.spell_at hs).symm.trans hb
    -- The ability in place `p` is called `id'`, whether it is that of a spell or the passive one.
    have hspell : ∀ slot' id'' spell' data', IsSpell sheet bundle slot' id'' spell' data' →
        place sheet bundle slot' = p → HasKey name sheet bundle p (lowercased id) := by
      rintro slot' id'' spell' data' hs' rfl
      cases (hc.spell_at hs').symm.trans ha
      obtain rfl : id'' = id' := hn
      exact .id ⟨id'', spell', data', hs', .inl hk.symm⟩
    rcases hp with ⟨_, _, _, hs', -⟩ | ⟨_, _, _, _, hs', -⟩ | ⟨⟨data', hd⟩, -⟩
    · exact hspell _ _ _ _ hs' rfl
    · exact hspell _ _ _ _ hs' rfl
    · have hpassive : passiveAbility? name sheet bundle
          = some (.ofRecords passiveKey .empty data') :=
        Option.map_eq_some_iff.2 ⟨data', hd, rfl⟩
      cases (hc.passive_at hpassive).symm.trans ha
      obtain rfl : passiveKey = id' := hn
      exact .passive ⟨⟨data', hd⟩, .inl (hk.symm.trans (by decide))⟩
  · rwa [← hk]

end

/-! ## Ids of spells -/

/-- A reference by the id of a spell finds the last ability that has the id without its
separators for a key, and the slot of the spell the last one that has the id itself. They are
the same if and only if the former has the id itself as well. -/
theorem lookups_of_isSpell (name : String) {sheet : ChampionSheet} {bundle : Bundle}
    (baseRecord : Json) {slot : Nat} {id : String} {spell : SpellSheet} {data : SpellData}
    (h : IsSpell sheet bundle slot id spell data) :
    ∃ p q a b, IsGreatest {n | HasKey name sheet bundle n (Name.slug id)} p ∧
      IsGreatest {n | HasKey name sheet bundle n (lowercased id)} q ∧
      (ofRecords name sheet bundle baseRecord).abilities[p]? = some a ∧
      (ofRecords name sheet bundle baseRecord).findAbility? id = some a ∧
      (ofRecords name sheet bundle baseRecord).abilities[q]? = some b ∧
      (ofRecords name sheet bundle baseRecord).abilityOfSlot? slot = some b ∧
      (a = b ↔ HasKey name sheet bundle p (lowercased id)) := by
  have hc := isRegistered_ofRecords name sheet bundle baseRecord
  have hslug : HasKey name sheet bundle _ (Name.slug id) := .id ⟨id, spell, data, h, .inr rfl⟩
  have hlow : HasKey name sheet bundle _ (lowercased id) := .id ⟨id, spell, data, h, .inl rfl⟩
  obtain ⟨p, -, hp⟩ := hc.registered hslug
  obtain ⟨q, -, hq⟩ := hc.registered hlow
  obtain ⟨a, hpa, ha⟩ := hc.ability_at hp
  obtain ⟨b, hqb, hb⟩ := hc.ability_at hq
  have hlastp := hc.position_iff.1 hp
  have hlastq := hc.position_iff.1 hq
  refine ⟨p, q, a, b, hlastp, hlastq, hpa, ?_, hqb, ?_, ?_⟩
  · rw [findAbility?_eq_or, ha, Option.some_or]
  · rw [abilityOfSlot?_eq name bundle baseRecord h.at_slot h.has_id, hb, Option.some_or,
      Option.some_or]
  · constructor
    · intro he
      exact hasKey_of_name_eq baseRecord hlastp.1 hlastq.1 hpa hqb (congrArg Ability.name he)
    · intro hk
      have hpq : p = q := Nat.le_antisymm (hlastq.2 hk) (hlastp.2 (hasKey_slug hlastq.1))
      exact Option.some.inj (hpa.symm.trans (hpq ▸ hqb))

theorem lookups_of_isSpell_decoy :
    IsSpell (decoySheet none) decoyBundle 0 "MonkeyKingDecoy" decoy ⟨[], []⟩ ∧
      ∃ p q a b,
        IsGreatest {n | HasKey "Wukong" (decoySheet none) decoyBundle n
          (Name.slug "MonkeyKingDecoy")} p ∧
        IsGreatest {n | HasKey "Wukong" (decoySheet none) decoyBundle n
          (lowercased "MonkeyKingDecoy")} q ∧
        (ofRecords "Wukong" (decoySheet none) decoyBundle .null).abilities[p]? = some a ∧
        (ofRecords "Wukong" (decoySheet none) decoyBundle .null).findAbility? "MonkeyKingDecoy"
          = some a ∧
        (ofRecords "Wukong" (decoySheet none) decoyBundle .null).abilities[q]? = some b ∧
        (ofRecords "Wukong" (decoySheet none) decoyBundle .null).abilityOfSlot? 0 = some b ∧
        (a = b ↔ HasKey "Wukong" (decoySheet none) decoyBundle p
          (lowercased "MonkeyKingDecoy")) :=
  ⟨isSpell_decoy none, lookups_of_isSpell "Wukong" .null (isSpell_decoy none)⟩

/-- A champion with two spells whose ids differ by a separator. -/
def orbSheet : ChampionSheet where
  id := some "Ahri"
  spells := [{ SpellSheet.empty with id := some "Ahri_Orb" },
    { SpellSheet.empty with id := some "AhriOrb" }]
  passive := none
  stats := []

/-- Game data of both spells, without numbers. -/
def orbBundle : Bundle :=
  ⟨[("Spells/Ahri_Orb", .object [("mSpell", .object [])]),
    ("Spells/AhriOrb", .object [("mSpell", .object [])])]⟩

/-- A reference by the id of a spell need not find the ability of its slot. -/
theorem exists_parted_lookups :
    ¬ ∀ (name : String) (sheet : ChampionSheet) (bundle : Bundle) (baseRecord : Json) (slot : Nat)
        (id : String) (spell : SpellSheet) (data : SpellData),
      IsSpell sheet bundle slot id spell data →
        (ofRecords name sheet bundle baseRecord).findAbility? id
          = (ofRecords name sheet bundle baseRecord).abilityOfSlot? slot := by
  intro h
  have hsame := h "Ahri" orbSheet orbBundle .null 0 "Ahri_Orb" _ ⟨[], []⟩ ⟨rfl, rfl, rfl⟩
  have hfind : ((ofRecords "Ahri" orbSheet orbBundle .null).findAbility? "Ahri_Orb").map
      Ability.name = some "AhriOrb" := by decide +kernel
  have hslot : ((ofRecords "Ahri" orbSheet orbBundle .null).abilityOfSlot? 0).map
      Ability.name = some "Ahri_Orb" := by decide +kernel
  rw [hsame, hslot] at hfind
  exact absurd hfind (by decide)

end Champion

end SpellText
