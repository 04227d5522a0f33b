import SpellText.Catalog
import SpellText.Record.Report

/-!
# Runs

A run resolves the texts of all locales of a workspace. It has three stages:
everything is read (`prepare`), the texts are resolved (`resolveAll`), and the
results are written (`publish`). Nothing is written before everything has been
read, so that a file that cannot be read leaves the directory as it was.

`run` is a function from a directory to an outcome and the directory afterwards.
-/

namespace SpellText

/-- What a run is asked to do. -/
structure Job where
  /-- The data folder. -/
  folder : String
  /-- Where the report goes, if one is wanted. -/
  reportPath : Option String
  /-- Resolve without writing texts. -/
  dryRun : Bool
  /-- The locales to resolve in place of those of the settings. -/
  locales : Option (List String)

/-- Everything that a run reads. -/
structure Prepared where
  workspace : Workspace
  catalog : Catalog
  /-- The texts by locale, in the order in which they are resolved. -/
  texts : List (String × Texts)

/-- The resolved texts of a locale and the tally of their placeholders. -/
structure Resolved where
  locale : String
  texts : Texts
  tally : Tally

namespace Job

/-- The workspace of a job. -/
def loadWorkspace (j : Job) (d : Directory) : Except FileError Workspace := do
  let w ← Workspace.load d j.folder
  return { w with settings := { w.settings with locales := j.locales.getD w.settings.locales } }

/-- The texts of the base locale. -/
def loadBaseTexts (w : Workspace) (d : Directory) : Except FileError Texts :=
  match w.loadTexts d w.settings.baseLocale with
  | .ok texts => .ok texts
  | .error e => .error (.baseLocale w.settings.baseLocale e)

/-- The texts of all locales in order; those of the base locale are at hand. -/
def loadAllTexts (w : Workspace) (d : Directory) (baseTexts : Texts) :
    List String → Except FileError (List (String × Texts))
  | [] => .ok []
  | locale :: rest => do
    let texts ← if locale = w.settings.baseLocale then .ok baseTexts else w.loadTexts d locale
    return (locale, texts) :: (← loadAllTexts w d baseTexts rest)

/-- Read everything that the job needs. -/
def prepare (j : Job) (d : Directory) : Except FileError Prepared := do
  let w ← j.loadWorkspace d
  let sheets ← w.loadSheets d
  let baseTexts ← loadBaseTexts w d
  let catalog := Catalog.build w d sheets baseTexts
  let texts ← loadAllTexts w d baseTexts w.settings.locales
  return ⟨w, catalog, texts⟩

/-- Resolve the texts of every locale. -/
def resolveAll (p : Prepared) : List Resolved :=
  p.texts.map fun (locale, texts) =>
    let (texts, t) := p.catalog.fillTexts locale texts .empty
    ⟨locale, texts, t⟩

/-- The tally of all locales. -/
def totalOf (rs : List Resolved) : Tally := rs.foldl (fun t r => t ++ r.tally) .empty

/-- Write the resolved texts of the locales in order, up to the first failure. -/
def saveAll (w : Workspace) : List Resolved → Directory → Except FileError Unit × Directory
  | [], d => (.ok (), d)
  | r :: rest, d =>
    match w.saveTexts r.locale r.texts d with
    | (.ok (), d) => saveAll w rest d
    | failed => failed

/-- Write the report, if one is wanted. -/
def writeReport (path : Option String) (t : Tally) (d : Directory) :
    Except FileError Unit × Directory :=
  match path with
  | none => (.ok (), d)
  | some path => Workspace.writeFile d path t.toJson.pretty .report

/-- Write the resolved texts, unless only a report is wanted, and the report. -/
def publish (j : Job) (w : Workspace) (rs : List Resolved) (d : Directory) :
    Except FileError Unit × Directory :=
  match if j.dryRun then (.ok (), d) else saveAll w rs d with
  | (.ok (), d) => writeReport j.reportPath (totalOf rs) d
  | failed => failed

/-- Carry out the job in a directory. -/
def run (j : Job) (d : Directory) : Except FileError Tally × Directory :=
  match j.prepare d with
  | .error e => (.error e, d)
  | .ok p =>
    let rs := resolveAll p
    match j.publish p.workspace rs d with
    | (.ok (), d) => (.ok (totalOf rs), d)
    | (.error e, d) => (.error e, d)

end Job

end SpellText
