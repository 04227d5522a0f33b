import SpellText.Files.Directory
import SpellText.Files.Error
import SpellText.Json.Reader
import SpellText.Json.Writer
import SpellText.Record.Spell
import SpellText.Settings

/-!
# Workspaces

A data folder with its settings. It holds the sheets of all champions, a file of
texts for every locale, and a bundle for every champion. The operations read
these files from a directory and write texts back to it.
-/

namespace SpellText

/-- Texts by champion. -/
abbrev Texts := List (String × Json)

/-- A data folder and its settings. -/
structure Workspace where
  folder : String
  settings : Settings

namespace Workspace

/-! ## Paths -/

/-- The file of the settings in a data folder. -/
def settingsPath (folder : String) : String := Path.join folder "tooltip.toml"

/-- The file of the champions' sheets. -/
def sheetsPath (w : Workspace) : String := Path.join w.folder "champion_meta.json"

/-- The name of the file with the texts of a locale. -/
def textsName (locale : String) : String := "champion_text_" ++ locale ++ ".json"

/-- The file with the texts of a locale. -/
def textsPath (w : Workspace) (locale : String) : String :=
  Path.join w.folder (textsName locale)

/-- The file for the resolved texts of a locale. -/
def outputPath (w : Workspace) (locale : String) : String :=
  match w.settings.outputFolder with
  | some output => Path.join (Path.join w.folder output) (textsName locale)
  | none => w.textsPath locale

/-- The folder of the bundles. -/
def bundlesPath (w : Workspace) : String := Path.join w.folder w.settings.bundleFolder

/-- The bundle of the champion with the given slug. -/
def bundlePath (w : Workspace) (slug : String) : String :=
  Path.join w.bundlesPath (slug ++ ".bin.json")

/-! ## Reading -/

/-- The text of a file. -/
def readFile (d : Directory) (path : String) : Except FileError String :=
  match d.read? path with
  | some text => .ok text
  | none => .error (.unreadable path)

/-- The members of a JSON object in a file. -/
def readObject (d : Directory) (path : String) (bad : String → FileError) :
    Except FileError (List (String × Json)) := do
  let text ← readFile d path
  match (Json.parse? text).bind Json.object? with
  | some members => .ok members
  | none => .error (bad path)

/-- The settings in a file. -/
def loadSettings (d : Directory) (path : String) : Except FileError Settings := do
  let text ← readFile d path
  match Settings.parse? text with
  | some settings => .ok settings
  | none => .error (.badSettings path)

/-- The settings in a file, or the default ones where there is none. -/
def loadSettingsOrDefault (d : Directory) (path : String) : Except FileError Settings :=
  if d.hasPath path then loadSettings d path else .ok .default

/-- The workspace in a data folder. -/
def load (d : Directory) (folder : String) : Except FileError Workspace := do
  let settings ← loadSettingsOrDefault d (settingsPath folder)
  return ⟨folder, settings⟩

/-- The sheets of the champions. An entry that is no sheet is left out. -/
def loadSheets (w : Workspace) (d : Directory) : Except FileError (Table ChampionSheet) := do
  let members ← readObject d w.sheetsPath .badSheets
  return .ofList (members.filterMap fun m => (Record.championSheet? m.2).map (m.1, ·))

/-- The bundle of the champion with the given slug. -/
def loadBundle (w : Workspace) (d : Directory) (slug : String) : Except FileError Bundle := do
  return ⟨← readObject d (w.bundlePath slug) .badBundle⟩

/-- The texts of a locale. -/
def loadTexts (w : Workspace) (d : Directory) (locale : String) : Except FileError Texts :=
  readObject d (w.textsPath locale) .badTexts

/-! ## Writing -/

/-- Make the folders that a file is to be in: whether they are there now, and
the directory then. -/
def makeParent (d : Directory) (path : String) : Bool × Directory :=
  let folder := Path.parent path
  if folder.isEmpty then (true, d) else d.makeFolders folder

/-- The texts of a locale as they are written. -/
def textsFile (texts : Texts) : String := (Json.object texts).compact

/-- Write a file and the folders it is in. What was made before a failure stays. -/
def writeFile (d : Directory) (path text : String) (bad : String → FileError) :
    Except FileError Unit × Directory :=
  match makeParent d path with
  | (false, d) => (.error (.folder (Path.parent path)), d)
  | (true, d) =>
    match d.write? path text with
    | some d => (.ok (), d)
    | none => (.error (bad path), d)

/-- Write the resolved texts of a locale. -/
def saveTexts (w : Workspace) (locale : String) (texts : Texts) (d : Directory) :
    Except FileError Unit × Directory :=
  writeFile d (w.outputPath locale) (textsFile texts) .unwritable

end Workspace

end SpellText
