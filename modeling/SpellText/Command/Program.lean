import SpellText.Command.Options
import SpellText.Log.Account

/-!
# The command

The command line as a function from arguments, environment and directory to an
outcome and the directory afterwards.
-/

namespace SpellText.Command

/-- How a command line ends. -/
inductive Outcome
  /-- The run went through. -/
  | done (t : Tally)
  /-- The run was stopped. -/
  | stopped (e : FileError)
  | help
  | version
  /-- The arguments do not make sense. -/
  | misuse
  /-- The log cannot be opened, though its folder is there. -/
  | noLog
  /-- The file of variables gives a value that no variable can hold. -/
  | unfitVariable

/-- The exit code of an outcome. -/
def Outcome.exitCode : Outcome → Nat
  | done _ => 0
  | stopped _ => 1
  | help => 0
  | version => 0
  | misuse => 2
  | noLog => 101
  | unfitVariable => 101

/-- The name of the log. -/
def logName : String := "resolve-tooltips.log"

/-- The file of further variables. -/
def variablesPath : String := ".env"

/-- The environment with the assignments of the file of variables, if there is one. -/
def environment? (e : Environment) (d : Directory) : Option Environment :=
  match d.read? variablesPath with
  | some text => e.addFile? text
  | none => some e

/-- Write the lines of events at the end of a log. -/
def continueLog? (f : Log.Filter) (path : String) (es : List Log.Event) (d : Directory) :
    Option Directory :=
  d.write? path ((d.read? path).getD "" ++ f.lines es)

/-- Begin the log, if one is wanted. A log that exists is continued. -/
def openLog (s : Setup) (d : Directory) : Except Outcome Directory :=
  match s.logFolder with
  | none => .ok d
  | some folder =>
    match d.makeFolders folder with
    | (false, _) => .error (.stopped (.logFolder folder))
    | (true, d) =>
      let path := Path.join folder logName
      match continueLog? s.logFilter path [.opened path] d with
      | some d => .ok d
      | none => .error .noLog

/-- Tell of a run that began with the directory `before`, if a log is wanted. -/
def tellRun (s : Setup) (before d : Directory) : Directory :=
  match s.logFolder with
  | none => d
  | some folder =>
    (continueLog? s.logFilter (Path.join folder logName) (s.job.events before) d).getD d

/-- Carry out a setup. -/
def carryOut (s : Setup) (d : Directory) : Outcome × Directory :=
  match openLog s d with
  | .error outcome => (outcome, d)
  | .ok before =>
    match s.job.run before with
    | (.ok t, d) => (.done t, tellRun s before d)
    | (.error e, d) => (.stopped e, tellRun s before d)

/-- Carry out a command line. The file of variables is read before the arguments. -/
def execute (args : List String) (e : Environment) (d : Directory) : Outcome × Directory :=
  match environment? e d with
  | none => (.unfitVariable, d)
  | some e =>
    match Invocation.ofArgs args with
    | .run o => carryOut ((Setup.ofEnvironment e).with o) d
    | .showHelp => (.help, d)
    | .showVersion => (.version, d)
    | .misuse => (.misuse, d)

end SpellText.Command
