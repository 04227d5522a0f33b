import SpellText.Run

/-!
# Inputs of a run

The files that a run reads. Which they are depends on files that are read
before: the settings name the folders and locales, the sheets name the
champions. `Job.inputs` gives the paths as far as a directory tells, so that
asking again after fetching them finds all within three rounds.
-/

namespace SpellText.Job

/-- The bundles of the champions whose sheets are at hand. -/
def bundleInputs (w : Workspace) (d : Directory) : List String :=
  match w.loadSheets d with
  | .error _ => []
  | .ok sheets =>
    sheets.entries.map fun e => w.bundlePath (Name.slug (Champion.idOf e.1 e.2))

/-- The files that the job reads, as far as the directory tells. -/
def inputs (j : Job) (d : Directory) : List String :=
  Workspace.settingsPath j.folder ::
    match j.loadWorkspace d with
    | .error _ => []
    | .ok w =>
      w.sheetsPath :: w.textsPath w.settings.baseLocale
        :: w.settings.locales.map w.textsPath ++ bundleInputs w d

end SpellText.Job
