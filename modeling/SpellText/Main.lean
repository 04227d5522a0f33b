import SpellText.Command.Inputs
import SpellText.Command.Program

/-!
# The program

The outermost layer: fetch the files that a run may read, carry out the command
line on them, and write the files that it changed.
-/

namespace SpellText.Main

open Command

/-- The variables that have a meaning. -/
def variableNames : List String :=
  ["TOOLTIP_DATA_DIR", "TOOLTIP_LOG_DIR", "TOOLTIP_LOG_TO_FILE", "TOOLTIP_REPORT",
    "TOOLTIP_DRY_RUN", "HOME", "XDG_CACHE_HOME", "RUST_LOG"]

/-- The names that a text may refer to. -/
def wordsOf (text : String) : List String :=
  (text.toList.foldr
    (fun c words =>
      match words with
      | [] => if c.isAlphanum || c == '_' then [[c]] else []
      | word :: rest =>
        if c.isAlphanum || c == '_' then (c :: word) :: rest
        else if word.isEmpty then word :: rest else [] :: word :: rest)
    []).map String.ofList

/-- The variables of the process among the given names. -/
def fetchEnvironment (names : List String) : IO Environment := do
  let mut e : Environment := []
  for name in names do
    if !name.isEmpty then
      if let some value ← IO.getEnv name then
        e := e ++ [(name, value)]
  return e

/-- The directory with the file or folder at a path, if there is one. -/
def fetch (d : Directory) (path : String) : IO Directory := do
  let place := (← IO.currentDir) / path
  if ← place.isDir then
    return d.withFolder path
  try
    return d.withFile path (← IO.FS.readFile place)
  catch _ =>
    return d

/-- The directory with everything that a job reads. -/
def fetchInputs (j : Job) (d : Directory) : IO Directory := do
  let mut d := d
  for _ in [0, 1, 2] do
    for path in j.inputs d do
      d ← fetch d path
  return d

/-- Write a file and the folders it is in. -/
def store (path text : String) : IO Unit := do
  let here ← IO.currentDir
  let folder := Path.parent path
  if !folder.isEmpty then
    IO.FS.createDirAll (here / folder)
  IO.FS.writeFile (here / path) text

/-- How the command is used. -/
def usage : String :=
  "Resolve tooltip placeholders in champion text maps\n\n" ++
  "Usage: resolve-tooltips [OPTIONS]\n\n" ++
  "Options:\n" ++
  "  -d, --data-dir <DATA_DIR>  Data directory (overrides TOOLTIP_DATA_DIR)\n" ++
  "  -l, --locale <LOCALES>     Locale to resolve; repeat for several (overrides tooltip.toml)\n" ++
  "  -r, --report <REPORT>      Write the diagnostics report to this file\n" ++
  "      --log-dir <LOG_DIR>    Also log to a file in this directory\n" ++
  "      --dry-run              Resolve and report without writing text maps\n" ++
  "  -h, --help                 Print help\n" ++
  "  -V, --version              Print version"

/-- Say how the command ended. -/
def announce : Outcome → IO Unit
  | .done t => IO.eprintln s!"replaced {t.replaced}, skipped {t.skipped}"
  | .stopped e => IO.eprintln ("Error: " ++ ": ".intercalate e.messages)
  | .help => IO.println usage
  | .version => IO.println "resolve-tooltips 0.1.0"
  | .misuse => IO.eprintln usage
  | .noLog => IO.eprintln "The log cannot be opened"
  | .unfitVariable => IO.eprintln "A variable cannot hold its value"

/-- Carry out a command line on the files of the machine. -/
def execute (args : List String) : IO UInt32 := do
  let d ← fetch ((Directory.ofFiles []).placedAt (← IO.currentDir).toString) variablesPath
  let words := ((d.read? variablesPath).map wordsOf).getD []
  let e ← fetchEnvironment (variableNames ++ words)
  let d ← match Invocation.ofArgs args, environment? e d with
    | .run o, some e =>
      let setup := (Setup.ofEnvironment e).with o
      let d ← match setup.logFolder with
        | some folder => fetch d (Path.join folder logName)
        | none => pure d
      fetchInputs setup.job d
    | _, _ => pure d
  let (outcome, after) := Command.execute args e d
  for (path, text) in d.changes after do
    store path text
  announce outcome
  return outcome.exitCode.toUInt32

end SpellText.Main

/-- Run the command line; a file that cannot be written ends it with code 1. -/
def main (args : List String) : IO UInt32 := do
  try
    SpellText.Main.execute args
  catch e =>
    IO.eprintln s!"Error: {e}"
    return 1
