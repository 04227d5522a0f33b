import SpellText.Substitution
import SpellText.Workspace

/-!
# Catalogs

The champions of a workspace by name, in the order of their sheets. A champion
without a bundle is left out, and its texts stay as they are.
-/

namespace SpellText

/-- Champions by name. -/
abbrev Catalog := Table Champion

namespace Catalog

/-- The champion of a sheet, unless its bundle cannot be loaded. -/
def champion? (w : Workspace) (d : Directory) (baseTexts : Texts) (name : String)
    (sheet : ChampionSheet) : Option Champion :=
  match w.loadBundle d (Name.slug (Champion.idOf name sheet)) with
  | .error _ => none
  | .ok bundle => some (.ofRecords name sheet bundle ((Entries.get? name baseTexts).getD .null))

/-- The champions of a workspace. -/
def build (w : Workspace) (d : Directory) (sheets : Table ChampionSheet) (baseTexts : Texts) :
    Catalog :=
  .ofList <| sheets.entries.filterMap fun e =>
    (champion? w d baseTexts e.1 e.2).map (e.1, ·)

/-- Resolve the record of a champion; that of an unknown one stays as it is. -/
def fillRecord (c : Catalog) (locale name : String) (record : Json) (t : Tally) : Json × Tally :=
  match c.get? name with
  | some champion => champion.fillRecord locale record t
  | none => (record, t)

/-- Resolve the texts of a locale, record by record. -/
def fillTexts (c : Catalog) (locale : String) : Texts → Tally → Texts × Tally
  | [], t => ([], t)
  | (name, record) :: rest, t =>
    let (record, t) := c.fillRecord locale name record t
    let (rest, t) := c.fillTexts locale rest t
    ((name, record) :: rest, t)

end Catalog

end SpellText
