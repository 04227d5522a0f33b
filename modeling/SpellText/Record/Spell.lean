import SpellText.Record.Formula

/-!
# Records of champions and spells

Two sources describe a champion. Its *sheet* lists the spells in slot order with
their costs by rank, and the base stats. Its *bundle* is an export of game data
in which every spell has an entry with named numbers and formulas.

Lists that are left out or null are empty, so that incomplete records resolve
as far as they go.
-/

namespace SpellText

/-! ## Sheets -/

/-- What a champion's sheet says about a spell. -/
structure SpellSheet where
  id : Option String
  cooldown : List Float
  cost : List Float
  range : List Float
  /-- Effect amounts by number; the first is usually absent. -/
  effects : List (Option (List Float))
  /-- Effect amounts by number as texts such as `10/20/30`. -/
  burns : List (Option String)

/-- A sheet that says nothing. -/
def SpellSheet.empty : SpellSheet := ⟨none, [], [], [], [], []⟩

/-- What a champion's sheet says about the passive ability. -/
structure PassiveSheet where
  id : Option String

/-- A champion's sheet. -/
structure ChampionSheet where
  id : Option String
  /-- The spells in slot order. -/
  spells : List SpellSheet
  passive : Option PassiveSheet
  /-- The base stats; only numbers count. -/
  stats : List (String × Json)

/-! ## Game data -/

/-- A named number by rank. -/
structure NamedRanks where
  name : Option String
  ranks : List Float

/-- The numbers and formulas of a spell. -/
structure SpellData where
  values : List NamedRanks
  formulas : List (String × Formula)

/-- Game data of a champion: entries under the paths of their objects. -/
structure Bundle where
  entries : List (String × Json)

/-! ## Decoding -/

namespace Record

/-- The sheet of a spell. -/
def spellSheet? (v : Json) : Option SpellSheet := do
  match ← slots? [["id"], ["cooldown"], ["cost"], ["range"], ["effect"], ["effectBurn"]]
      (← shape? v) with
  | [id, cooldown, cost, range, effects, burns] =>
    return {
      id := ← optional? Json.string? id
      cooldown := ← defaulted? [] ranks? cooldown
      cost := ← defaulted? [] ranks? cost
      range := ← defaulted? [] ranks? range
      effects := ← defaulted? [] (list? (nullable? ranks?)) effects
      burns := ← defaulted? [] (list? (nullable? Json.string?)) burns }
  | _ => none

/-- The sheet of a passive ability. -/
def passiveSheet? (v : Json) : Option PassiveSheet := do
  match ← slots? [["id"]] (← shape? v) with
  | [id] => return ⟨← optional? Json.string? id⟩
  | _ => none

/-- The sheet of a champion. -/
def championSheet? (v : Json) : Option ChampionSheet := do
  match ← slots? [["id"], ["spells"], ["passive"], ["stats"]] (← shape? v) with
  | [id, spells, passive, stats] =>
    return {
      id := ← optional? Json.string? id
      spells := ← defaulted? [] (list? spellSheet?) spells
      passive := ← optional? passiveSheet? passive
      stats := ← defaulted? [] Json.object? stats }
  | _ => none

/-- A named number. -/
def namedRanks? (v : Json) : Option NamedRanks := do
  match ← slots? [["mName"], ["mValues"]] (← shape? v) with
  | [name, ranks] =>
    return ⟨← optional? Json.string? name, ← defaulted? [] ranks? ranks⟩
  | _ => none

/-- Formulas by name. -/
def formulas? (v : Json) : Option (List (String × Formula)) := do
  (← v.object?).mapM fun m => (formula? m.2).map (m.1, ·)

/-- The numbers and formulas of a spell. -/
def spellData? (v : Json) : Option SpellData := do
  match ← slots? [["DataValues", "mDataValues"], ["mSpellCalculations"]] (← shape? v) with
  | [values, formulas] =>
    return ⟨← defaulted? [] (list? namedRanks?) values, ← defaulted? [] formulas? formulas⟩
  | _ => none

/-- The bundle of a champion. -/
def bundle? (v : Json) : Option Bundle := v.object?.map (⟨·⟩)

end Record

/-! ## Finding a spell -/

namespace Bundle

/-- The number of entries. -/
def size (b : Bundle) : Nat := b.entries.length

/-- The entry path ends with a slash and the script name, in any case of letters. -/
def isPathOf (script path : String) : Bool :=
  ('/' :: Text.lowercase script.toList).isSuffixOf (Text.lowercase path.toList)

/-- The part of an entry that holds the spell: a member `mSpell`, or the whole. -/
def payload (entry : Json) : Json :=
  match entry.member? "mSpell" with
  | some (.object ms) => .object ms
  | _ => entry

/-- The entry of the spell with the given script name: the first object whose
path ends with the name. -/
def entry? (b : Bundle) (script : String) : Option Json :=
  if script.isEmpty then none
  else (b.entries.find? fun e => e.2.isObject && isPathOf script e.1).map (·.2)

/-- The numbers and formulas of the spell with the given script name. -/
def findSpell? (b : Bundle) (script : String) : Option SpellData :=
  (b.entry? script).bind fun e => Record.spellData? (payload e)

end Bundle

end SpellText
