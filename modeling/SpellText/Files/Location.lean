import SpellText.Files.Path

/-!
# Locations

A location is a list of names from a directory down to a file or folder. One
that begins with `..` lies above the directory, one that begins with an empty
name is absolute. A path is a way to a location (`Location.ofPath`); dots and
repeated slashes in it lead nowhere further.
-/

namespace SpellText

/-- Where a file or folder is. -/
abbrev Location := List String

namespace Location

/-- The location as one text. -/
def key (l : Location) : String := "/".intercalate l

/-- The folder around a location. -/
def above (l : Location) : Location :=
  match l.getLast? with
  | none => [".."]
  | some ".." => l ++ [".."]
  | some "" => l
  | some _ => l.dropLast

/-- The folders that every system has at its root. -/
def systemFolders : List String :=
  ["bin", "boot", "dev", "etc", "home", "lib", "media", "mnt", "opt", "proc", "root", "run",
    "sbin", "srv", "sys", "tmp", "usr", "var"]

/-- A folder that exists without being made: the directory itself, those above
it, the root, and what every system has there. -/
def isGiven (l : Location) : Bool :=
  match l with
  | [""] => true
  | ["", name] => systemFolders.contains name
  | ["", "proc", name] => name == "self" || name == "sys"
  | l => l.all (· == "..")

/-- A place of the system in which nothing can be made: what is there shows the
state of the machine. -/
def isSealed (l : Location) : Bool :=
  match l with
  | "" :: name :: _ => name == "proc" || name == "sys"
  | _ => false

/-- Go one component further, whether or not there is a folder. -/
def along (l : Location) (component : String) : Location :=
  if component = "" || component = "." then l
  else if component = ".." then l.above
  else l ++ [component]

/-- Where a path starts, and its components. -/
def start (path : String) : Location × List String :=
  let names := (Path.components path.toList).map String.ofList
  if Path.isAbsolute path then ([""], names) else ([], names)

/-- Where a path leads if everything on the way exists. -/
def ofPath (path : String) : Location :=
  let (l, names) := start path
  names.foldl along l

end Location

/-- A place that is no file and keeps nothing. -/
inductive Device
  /-- What is written is lost. -/
  | sink
  /-- Nothing can be written. -/
  | full

/-- The device at a location. -/
def Device.at? : Location → Option Device
  | ["", "dev", "null"] => some .sink
  | ["", "dev", "zero"] => some .sink
  | ["", "dev", "random"] => some .sink
  | ["", "dev", "urandom"] => some .sink
  | ["", "dev", "full"] => some .full
  | ["", "dev", "tty"] => some .full
  | _ => none

end SpellText
