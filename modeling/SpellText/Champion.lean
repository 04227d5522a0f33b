import SpellText.Ability
import SpellText.Resource

/-!
# Champions

A champion's abilities and the keys under which they are known: the id of the
spell, its slot letter, the champion's slug with the slot letter, and `passive`.
Abilities are registered one after the other, spells first and in slot order;
a key that comes again then belongs to the later ability (`Registry.register`).
A registry says of each key where in the list its ability stands, and holds the
proof that it stands there (`Registry.inside`), so that a lookup cannot miss.
-/

namespace SpellText

open Text (lowercased)

/-! ## Registered abilities -/

/-- An ability with the keys that it is registered under. -/
structure Champion.Registration where
  ability : Ability
  keys : List String

/-- Abilities in the order of their registration, and the keys that they are known by. -/
structure Registry where
  abilities : List Ability
  /-- Where in the list the ability of a key stands. -/
  positions : Table Nat
  /-- Every key leads to an ability of the list. -/
  inside : ∀ {key p}, positions.get? key = some p → p < abilities.length

namespace Registry

/-- The registry without abilities. -/
def empty : Registry where
  abilities := []
  positions := .empty
  inside h := nomatch h

/-- Register an ability: it goes to the end of the list, and its keys lead to it from now on. -/
def register (g : Registry) (r : Champion.Registration) : Registry where
  abilities := g.abilities ++ [r.ability]
  positions := g.positions.insertAll (r.keys.map (·, g.abilities.length))
  inside {key p} h := by
    rw [Table.get?_insertAll_map] at h
    rw [List.length_append, List.length_singleton]
    split at h
    · cases h
      exact Nat.lt_succ_self _
    · exact Nat.lt_succ_of_lt (g.inside h)

/-- Register one ability after the other. -/
def ofRegistrations (rs : List Champion.Registration) : Registry := rs.foldl register empty

/-- The ability under an exact key. -/
def ability? (g : Registry) (key : String) : Option Ability :=
  match h : g.positions.get? key with
  | some p => some (g.abilities.get ⟨p, g.inside h⟩)
  | none => none

section

variable (g : Registry) (r : Champion.Registration) (rs : List Champion.Registration)

theorem ability?_eq_bind (key : String) :
    g.ability? key = (g.positions.get? key).bind (g.abilities[·]?) := by
  unfold ability?
  split
  · next p h =>
    have hp : (g.positions.get? key).bind (g.abilities[·]?) = g.abilities[p]? := by
      rw [h, Option.bind_some]
    rw [hp, List.getElem?_eq_getElem (g.inside h), List.get_eq_getElem]
  · next h => rw [h, Option.bind_none]

@[simp] theorem abilities_register : (g.register r).abilities = g.abilities ++ [r.ability] := rfl

theorem get?_positions_register (key : String) : (g.register r).positions.get? key
    = if key ∈ r.keys then some g.abilities.length else g.positions.get? key :=
  Table.get?_insertAll_map g.positions r.keys g.abilities.length key

/-- The keys of a registration lead to its ability, the others to what they led to. -/
theorem ability?_register (key : String) :
    (g.register r).ability? key = if key ∈ r.keys then some r.ability else g.ability? key := by
  rw [ability?_eq_bind, get?_positions_register, abilities_register]
  split
  · rw [Option.bind_some, List.getElem?_concat_length]
  · rw [ability?_eq_bind]
    refine Option.bind_congr fun p hp => ?_
    rw [List.getElem?_append_left (g.inside hp)]

@[simp] theorem ofRegistrations_concat :
    ofRegistrations (rs ++ [r]) = (ofRegistrations rs).register r := by
  rw [ofRegistrations, List.foldl_append]
  rfl

end

end Registry

/-! ## Champions -/

/-- A champion with the abilities that game data has numbers for. -/
structure Champion extends Registry where
  name : String
  /-- The id in lower case without separators. -/
  slug : String
  /-- What abilities cost, as the base record has it. -/
  resource : String
  stats : BaseStats
  /-- The ids of all spells in slot order. -/
  spellIds : List String

namespace Champion

/-- The letters of the first four slots. -/
def slotLetters : List String := ["q", "w", "e", "r"]

/-- The key and the name of the passive ability. -/
def passiveKey : String := "passive"

/-- The keys of the spell in a slot. -/
def spellKeys (slug : String) (slot : Nat) (id : String) : List String :=
  [lowercased id, Name.slug id] ++
    match slotLetters[slot]? with
    | some letter => [letter, slug ++ letter]
    | none => []

/-- The registration of the spell in a slot, if it has an id and data. -/
def spellRegistration? (slug : String) (bundle : Bundle) (slot : Nat) (sheet : SpellSheet) :
    Option Registration := do
  let id ← sheet.id.filter (!·.isEmpty)
  let data ← bundle.findSpell? id
  return ⟨.ofRecords id sheet data, spellKeys slug slot id⟩

/-- The registrations of the spells from a slot on. -/
def spellRegistrations (slug : String) (bundle : Bundle) :
    Nat → List SpellSheet → List Registration
  | _, [] => []
  | slot, sheet :: rest =>
    (spellRegistration? slug bundle slot sheet).toList
      ++ spellRegistrations slug bundle (slot + 1) rest

/-- The script of the passive ability: its id, else the champion's with `Passive` behind. -/
def passiveScript (id : String) (sheet : ChampionSheet) : String :=
  (sheet.passive.bind (·.id)).getD (id ++ "Passive")

/-- The registration of the passive ability, if it has data. -/
def passiveRegistration? (bundle : Bundle) (script : String) : Option Registration :=
  (bundle.findSpell? script).map fun data =>
    ⟨.ofRecords passiveKey .empty data, [passiveKey, Name.slug script]⟩

/-- The id of a champion: as its sheet says, else its name. -/
def idOf (name : String) (sheet : ChampionSheet) : String := sheet.id.getD name

/-- All registrations of a champion in order. -/
def registrations (name : String) (sheet : ChampionSheet) (bundle : Bundle) : List Registration :=
  let id := idOf name sheet
  spellRegistrations (Name.slug id) bundle 0 sheet.spells
    ++ (passiveRegistration? bundle (passiveScript id sheet)).toList

/-- The champion with the given records. Of the base record only the resource counts. -/
def ofRecords (name : String) (sheet : ChampionSheet) (bundle : Bundle) (baseRecord : Json) :
    Champion :=
  { Registry.ofRegistrations (registrations name sheet bundle) with
    name
    slug := Name.slug (idOf name sheet)
    resource := ((baseRecord.member? "partype").bind Json.string?).getD ""
    stats := .ofSheet sheet.stats
    spellIds := sheet.spells.map fun s => s.id.getD "" }

/-- The ability under an exact key. -/
def ability? (c : Champion) (key : String) : Option Ability := c.toRegistry.ability? key

/-- The ability of the spell with the given id. -/
def abilityOfId? (c : Champion) (id : String) : Option Ability :=
  (c.ability? (lowercased id)).or (c.ability? (Name.slug id))

/-- The ability of a slot: by the id of its spell, else by its letter. -/
def abilityOfSlot? (c : Champion) (slot : Nat) : Option Ability :=
  (c.spellIds[slot]?.bind c.abilityOfId?).or (slotLetters[slot]?.bind c.ability?)

/-- The ability that a reference means: the first key of it that is known. -/
def findAbility? (c : Champion) (reference : String) : Option Ability :=
  Name.referenceSpellings.findSome? fun spelling => c.ability? (spelling.key reference)

/-- The name of what abilities cost, in a locale. -/
def resourceName (c : Champion) (locale : String) : String := Resource.nameIn locale c.resource

end Champion

end SpellText
