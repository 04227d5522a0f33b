import SpellText.Tally

/-!
# Events

What a run tells in its log. Every event belongs to a part of the program and
has a level, from errors to fine detail; a filter chooses by both, and by the
names of the values that come with the event (`Event.fields`).
-/

namespace SpellText.Log

/-- How much a log tells, from nothing to everything. -/
inductive Level
  | off
  | error
  | warn
  | info
  | debug
  | trace
  deriving DecidableEq, Repr

/-- The place of a level in the order from nothing to everything. -/
def Level.rank : Level → Nat
  | off => 0
  | error => 1
  | warn => 2
  | info => 3
  | debug => 4
  | trace => 5

/-- What the log tells of. -/
inductive Event
  /-- The log is open. -/
  | opened (path : String)
  /-- There is no file of settings. -/
  | defaultSettings (path : String)
  /-- The settings are known. -/
  | started
  /-- An entry of the sheets is no sheet. -/
  | malformedSheet (champion : String)
  /-- A champion is left out. -/
  | noBundle (champion : String)
  /-- The entry of a script in a bundle is no spell. -/
  | malformedSpell (script : String)
  /-- A bundle has no data for a spell. -/
  | noSpell (champion script : String)
  /-- A bundle has no data for the passive ability. -/
  | noPassive (champion script : String)
  /-- A champion's abilities are known. -/
  | ready (champion : String)
  /-- All champions are known. -/
  | allReady
  /-- A record of texts belongs to no champion of the catalog. -/
  | unknownChampion (name locale : String)
  /-- A placeholder stands where there is no ability. -/
  | noAbility (champion placeholder : String)
  /-- A placeholder is passed over. -/
  | skipped (champion ability placeholder : String)
  /-- A placeholder failed. -/
  | failed (d : Diagnostic)
  /-- The texts of a locale are resolved. -/
  | resolved (locale : String)
  /-- No texts are to be written. -/
  | dryRun
  /-- The texts of a locale are written. -/
  | saved (path : String)
  /-- The report is written. -/
  | reported (path : String)
  /-- The run went through. -/
  | finished
  deriving DecidableEq, Repr

namespace Event

/-- The level from which on the log tells of the event. -/
def level : Event → Level
  | opened _ => .info
  | defaultSettings _ => .debug
  | started => .info
  | malformedSheet _ => .warn
  | noBundle _ => .warn
  | malformedSpell _ => .warn
  | noSpell _ _ => .debug
  | noPassive _ _ => .debug
  | ready _ => .debug
  | allReady => .info
  | unknownChampion _ _ => .debug
  | noAbility _ _ => .debug
  | skipped _ _ _ => .debug
  | failed _ => .warn
  | resolved _ => .info
  | dryRun => .info
  | saved _ => .info
  | reported _ => .info
  | finished => .info

/-- The part of the program that the event belongs to, by the name that filters
know it under. -/
def part : Event → String
  | opened _ => "tooltip_client::logging"
  | defaultSettings _ => "tooltip_content::loaders::config"
  | malformedSheet _ => "tooltip_content::loaders::meta"
  | noBundle _ => "tooltip_content::catalog"
  | ready _ => "tooltip_content::catalog"
  | unknownChampion _ _ => "tooltip_content::catalog"
  | malformedSpell _ => "tooltip_core::records"
  | noSpell _ _ => "tooltip_core::champion"
  | noPassive _ _ => "tooltip_core::champion"
  | noAbility _ _ => "tooltip_core::substitute"
  | skipped _ _ _ => "tooltip_core::substitute"
  | failed _ => "tooltip_core::substitute"
  | started => "tooltip_client"
  | allReady => "tooltip_client"
  | resolved _ => "tooltip_client"
  | dryRun => "tooltip_client"
  | saved _ => "tooltip_client"
  | reported _ => "tooltip_client"
  | finished => "tooltip_client"

/-- The names of the values that come with the event. -/
def fields : Event → List String
  | opened _ => ["message"]
  | defaultSettings _ => ["message", "path"]
  | started => ["message", "data_dir", "locales", "dry_run"]
  | malformedSheet _ => ["message", "champion", "error"]
  | noBundle _ => ["message", "champion", "alias", "error"]
  | malformedSpell _ => ["message", "script", "key", "error"]
  | noSpell _ _ => ["message", "champion", "spell"]
  | noPassive _ _ => ["message", "champion", "script"]
  | ready _ => ["message", "champion", "abilities"]
  | allReady => ["message", "champions", "skipped"]
  | unknownChampion _ _ => ["message", "champion", "locale"]
  | noAbility _ _ => ["message", "champion", "placeholder"]
  | skipped _ _ _ => ["message", "champion", "ability", "placeholder", "error"]
  | failed _ => ["message", "champion", "ability", "placeholder", "code", "error"]
  | resolved _ => ["message", "locale", "replaced", "skipped", "unresolved"]
  | dryRun => ["message"]
  | saved _ => ["message", "path"]
  | reported _ => ["message", "path"]
  | finished => ["message", "replaced", "skipped", "unresolved"]

/-- The event in words. -/
def text : Event → String
  | opened path => "Log file: " ++ path
  | defaultSettings path => "No settings at " ++ path ++ ", defaults are used"
  | started => "Resolving placeholders"
  | malformedSheet champion => "Malformed sheet of " ++ champion
  | noBundle champion => "No spell bundle for " ++ champion
  | malformedSpell script => "Malformed spell data of " ++ script
  | noSpell champion script => "No data for the spell " ++ script ++ " of " ++ champion
  | noPassive champion script => "No data for the passive " ++ script ++ " of " ++ champion
  | ready champion => "Champion ready: " ++ champion
  | allReady => "Champions ready"
  | unknownChampion name locale => "Unknown champion " ++ name ++ " in " ++ locale
  | noAbility champion placeholder =>
    "No ability for " ++ placeholder ++ " in a text of " ++ champion
  | skipped champion ability placeholder =>
    "Skipped " ++ placeholder ++ " in a text of " ++ champion ++ ", " ++ ability
  | failed d =>
    "Unresolved " ++ d.placeholder ++ " in a text of " ++ d.champion ++ ", " ++ d.ability ++ ": "
      ++ d.message
  | resolved locale => "Locale resolved: " ++ locale
  | dryRun => "No texts are written"
  | saved path => "Wrote texts " ++ path
  | reported path => "Wrote report " ++ path
  | finished => "Placeholders resolved"

/-- The event as a line of the log. -/
def line (e : Event) : String := e.text ++ "\n"

end Event

end SpellText.Log
