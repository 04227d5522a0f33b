import SpellText.Command.Environment
import SpellText.Log.Filter
import SpellText.Run

/-!
# Options

What a user asks for, by environment variables (`Setup.ofEnvironment`) and by
arguments (`Invocation.ofArgs`). An argument wins over a variable.
-/

namespace SpellText.Command

/-! ## Variables -/

/-- A run with its log. -/
structure Setup where
  job : Job
  /-- Where the log goes, if one is wanted. -/
  logFolder : Option String
  /-- What the log tells of. -/
  logFilter : Log.Filter

/-- The value of a variable that is not empty. -/
def filled? (e : Environment) (name : String) : Option String :=
  (e.value? name).filter (!·.isEmpty)

/-- A switch: on for `true`, `1`, and for a variable without a value. -/
def switch (e : Environment) (name : String) : Bool :=
  match e.value? name with
  | some value => value = "true" || value = "1" || value.isEmpty
  | none => false

/-- The user's own folder; the root if it is not known. -/
def homeFolder (e : Environment) : String := (filled? e "HOME").getD "/"

/-- The user's folder for what can be made again. A folder that is named for it
counts only if its path is absolute. -/
def cacheFolder (e : Environment) : String :=
  ((e.value? "XDG_CACHE_HOME").filter Path.isAbsolute).getD (Path.join (homeFolder e) ".cache")

/-- Where the log goes when no folder is named. -/
def defaultLogFolder (e : Environment) : String :=
  Path.join (Path.join (cacheFolder e) "tooltip-resolver") "logs"

/-- What a log tells of: what the filter says if it makes sense, else the main steps. -/
def filterOf (e : Environment) : Log.Filter :=
  ((e.value? "RUST_LOG").bind Log.Filter.ofText?).getD .default

/-- The setup that variables ask for. -/
def Setup.ofEnvironment (e : Environment) : Setup where
  job := {
    folder := (filled? e "TOOLTIP_DATA_DIR").getD "."
    reportPath := filled? e "TOOLTIP_REPORT"
    dryRun := switch e "TOOLTIP_DRY_RUN"
    locales := none }
  logFolder := (filled? e "TOOLTIP_LOG_DIR").or
    (if switch e "TOOLTIP_LOG_TO_FILE" then some (defaultLogFolder e) else none)
  logFilter := filterOf e

/-! ## Arguments -/

/-- What the arguments ask for. -/
structure Options where
  dataFolder : Option String
  /-- The locales in the order in which they were named. -/
  locales : List String
  reportPath : Option String
  logFolder : Option String
  dryRun : Bool

/-- Nothing asked for. -/
def Options.none : Options := ⟨.none, [], .none, .none, false⟩

/-- An option that takes a value. -/
inductive Valued
  | dataFolder
  | locale
  | report
  | logFolder
  deriving DecidableEq

/-- The long name of an option. -/
def Valued.ofLong? (name : List Char) : Option Valued :=
  if name = "data-dir".toList then some .dataFolder
  else if name = "locale".toList then some .locale
  else if name = "report".toList then some .report
  else if name = "log-dir".toList then some .logFolder
  else .none

/-- The letter of an option. -/
def Valued.ofLetter? (c : Char) : Option Valued :=
  if c = 'd' then some .dataFolder
  else if c = 'l' then some .locale
  else if c = 'r' then some .report
  else .none

/-- Give an option its value. Only a locale may be empty or come again. -/
def Options.set? (o : Options) (v : Valued) (value : String) : Option Options :=
  match v with
  | .locale => some { o with locales := o.locales ++ [value] }
  | .dataFolder =>
    if value.isEmpty || o.dataFolder.isSome then .none else some { o with dataFolder := value }
  | .report =>
    if value.isEmpty || o.reportPath.isSome then .none else some { o with reportPath := value }
  | .logFolder =>
    if value.isEmpty || o.logFolder.isSome then .none else some { o with logFolder := value }

/-- What the command line amounts to. -/
inductive Invocation
  | run (o : Options)
  | showHelp
  | showVersion
  /-- Arguments that do not make sense. -/
  | misuse

/-- An argument as it stands. -/
inductive Arg
  /-- An option, and its value if it is part of the same argument. -/
  | valued (v : Valued) (value : Option String)
  | dryRun
  | help
  | version
  /-- Two hyphens; only plain arguments follow. -/
  | stop
  | unknown

/-- An argument that begins with two hyphens. -/
def Arg.ofLong (s : List Char) : Arg :=
  let name := s.takeWhile (· != '=')
  let value := match s.dropWhile (· != '=') with
    | _ :: value => some (String.ofList value)
    | [] => Option.none
  match Valued.ofLong? name, value with
  | some v, value => .valued v value
  | .none, some _ => .unknown
  | .none, .none =>
    if name = "dry-run".toList then .dryRun
    else if name = "help".toList then .help
    else if name = "version".toList then .version
    else .unknown

/-- An argument that begins with one hyphen and a letter. The value of the
option may follow directly, or behind an equals sign. -/
def Arg.ofShort (letter : Char) (rest : List Char) : Arg :=
  match Valued.ofLetter? letter, rest with
  | some v, [] => .valued v .none
  | some v, '=' :: value => .valued v (some (String.ofList value))
  | some v, value => .valued v (some (String.ofList value))
  | .none, _ => if letter = 'h' then .help else if letter = 'V' then .version else .unknown

/-- The meaning of an argument. -/
def Arg.of (arg : String) : Arg :=
  match arg.toList with
  | ['-', '-'] => .stop
  | '-' :: '-' :: s => .ofLong s
  | '-' :: letter :: rest => .ofShort letter rest
  | _ => .unknown

/-- The argument is an option and no value. A lone hyphen is a value. -/
def looksLikeOption (arg : String) : Bool :=
  match arg.toList with
  | '-' :: _ :: _ => true
  | _ => false

/-- What the arguments behind those of `o` amount to. -/
def Invocation.continue (o : Options) : List String → Invocation
  | [] => .run o
  | arg :: rest =>
    match Arg.of arg with
    | .unknown => .misuse
    | .stop => if rest.isEmpty then .run o else .misuse
    | .help => .showHelp
    | .version => .showVersion
    | .dryRun => if o.dryRun then .misuse else Invocation.continue { o with dryRun := true } rest
    | .valued v (some value) =>
      match o.set? v value with
      | some o => Invocation.continue o rest
      | .none => .misuse
    | .valued v .none =>
      match rest with
      | [] => .misuse
      | value :: rest =>
        if looksLikeOption value then .misuse
        else match o.set? v value with
          | some o => Invocation.continue o rest
          | .none => .misuse

/-- What the arguments amount to. -/
def Invocation.ofArgs (args : List String) : Invocation := Invocation.continue .none args

/-- The setup with what the arguments ask for. -/
def Setup.with (s : Setup) (o : Options) : Setup where
  job := {
    folder := o.dataFolder.getD s.job.folder
    reportPath := o.reportPath.or s.job.reportPath
    dryRun := s.job.dryRun || o.dryRun
    locales := if o.locales.isEmpty then s.job.locales else some o.locales }
  logFolder := o.logFolder.or s.logFolder
  logFilter := s.logFilter

end SpellText.Command
