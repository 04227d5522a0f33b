import SpellText.Toml.Reader

/-!
# Settings

Which locales are resolved and where the files are. Settings are usually read
from a TOML document (`Settings.ofDocument?`), in which every one may be left
out.
-/

namespace SpellText

/-- How a run is set up. -/
structure Settings where
  /-- The locales whose texts are resolved, in order. -/
  locales : List String
  /-- The locale whose records name the resources. -/
  baseLocale : String
  /-- The folder of the bundles, as seen from the data folder. -/
  bundleFolder : String
  /-- Where resolved texts go; without it they replace the texts they came from. -/
  outputFolder : Option String
  deriving DecidableEq, Repr

namespace Settings

/-- The settings where nothing is said. -/
def default : Settings where
  locales := ["en", "ru"]
  baseLocale := "en"
  bundleFolder := "cdragon_cache"
  outputFolder := none

instance : Inhabited Settings := ⟨default⟩

/-- The value of a setting that may be left out; only a plain value will do. -/
def setting? {α : Type} (d : Toml.Document) (key : String) (decode : Toml → Option α) :
    Option (Option α) :=
  match d.top? key with
  | none => some none
  | some (.value v) => (decode v).map some
  | some _ => none

/-- A list of strings. -/
def strings? (v : Toml) : Option (List String) := v.array?.bind (List.mapM Toml.string?)

/-- The settings of a document. Other keys do not count. -/
def ofDocument? (d : Toml.Document) : Option Settings := do
  let locales ← setting? d "locales" strings?
  let baseLocale ← setting? d "base_locale" Toml.string?
  let bundleFolder ← setting? d "bins_dir" Toml.string?
  let outputFolder ← setting? d "output_dir" Toml.string?
  return {
    locales := locales.getD default.locales
    baseLocale := baseLocale.getD default.baseLocale
    bundleFolder := bundleFolder.getD default.bundleFolder
    outputFolder := outputFolder }

/-- The settings of a TOML text. -/
def parse? (text : String) : Option Settings := (Toml.parse? text).bind ofDocument?

end Settings

end SpellText
