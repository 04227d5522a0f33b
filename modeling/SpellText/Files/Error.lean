/-!
# File errors

Why a run stops: a file that cannot be read, decoded or written. Faults of
single placeholders never stop a run.
-/

namespace SpellText

/-- Why a run stops. -/
inductive FileError
  /-- There is no such file, or it is a folder. -/
  | unreadable (path : String)
  /-- The settings are no TOML document, or a setting has the wrong type. -/
  | badSettings (path : String)
  /-- The champions' sheets are no JSON object. -/
  | badSheets (path : String)
  /-- A bundle is no JSON object. -/
  | badBundle (path : String)
  /-- The texts of a locale are no JSON object. -/
  | badTexts (path : String)
  /-- The texts of the base locale, on which every champion depends. -/
  | baseLocale (locale : String) (cause : FileError)
  /-- A folder that cannot be made. -/
  | folder (path : String)
  /-- A file that cannot be written. -/
  | unwritable (path : String)
  /-- The report cannot be written. -/
  | report (path : String)
  /-- The folder of the log cannot be made. -/
  | logFolder (path : String)
  deriving DecidableEq, Repr

namespace FileError

/-- The error in words, followed by its causes. -/
def messages : FileError → List String
  | unreadable path => ["Failed to read file " ++ path]
  | badSettings path => ["Failed to parse config TOML " ++ path]
  | badSheets path => ["Failed to parse metadata JSON " ++ path]
  | badBundle path => ["Failed to parse spell bundle " ++ path]
  | badTexts path => ["Failed to parse text JSON " ++ path]
  | baseLocale locale cause =>
    ("Failed to load base locale '" ++ locale ++ "'") :: cause.messages
  | folder path => ["Failed to create directory " ++ path]
  | unwritable path => ["Failed to write file " ++ path]
  | report path => ["Failed to write report " ++ path]
  | logFolder path => ["Failed to create log directory " ++ path]

end FileError

end SpellText
