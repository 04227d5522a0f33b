import SpellText.Files.Location
import SpellText.Table

/-!
# Directories

The content of a directory as a value: its files by location, and the folders
that were made in it. A path is looked up from the directory itself; every
folder on the way has to exist. Reading finds the text of a file, writing gives
the directory as it is afterwards.

Outside of the directory the root is known with the folders and devices that
every system has, and nothing else exists until it is made. An absolute path
leads back into the directory if its own place is known.
-/

namespace SpellText

/-- The content of a directory. -/
structure Directory where
  /-- The texts of the files by location. -/
  files : Table String
  /-- The folders that were made. -/
  folders : List String
  /-- The absolute location of the directory, if it is known. -/
  place : Option Location

/-- Why a path leads nowhere. -/
inductive Obstacle
  /-- Something on the way does not exist. -/
  | missing
  /-- Something on the way is no folder and cannot become one: it is a file, or
  no name that a file can have, or lies where nothing can be made. -/
  | blocked
  deriving DecidableEq, Repr

namespace Directory

/-- The directory with the given files, each under its path from the directory. -/
def ofFiles (files : List (String × String)) : Directory :=
  ⟨.ofList (files.map fun f => ((Location.ofPath f.1).key, f.2)), [], none⟩

/-- The directory as it lies at an absolute path. -/
def placedAt (d : Directory) (path : String) : Directory :=
  { d with place := some (Location.ofPath path) }

/-! ## Looking up paths -/

/-- Go one component further, whether or not there is a folder. At the place of
the directory, locations start anew. -/
def along (d : Directory) (l : Location) (component : String) : Location :=
  let next := l.along component
  if d.place == some next then [] else next

/-- There is a folder at the location. -/
def isFolder (d : Directory) (l : Location) : Bool :=
  l.isGiven || d.folders.contains l.key ||
    let start := (l.key ++ "/").toList
    d.files.keys.any fun k => start.isPrefixOf k.toList

/-- There is a file at the location. -/
def isFile (d : Directory) (l : Location) : Bool := (d.files.get? l.key).isSome

/-- There is a file or a device at the location. -/
def isTaken (d : Directory) (l : Location) : Bool := d.isFile l || (Device.at? l).isSome

/-- A component that a path can have. -/
def isComponent (s : String) : Bool := s.utf8ByteSize ≤ 255

/-- The folder that a component leads to from the folder `l`. -/
def enter (d : Directory) (l : Location) (component : String) : Except Obstacle Location :=
  if !isComponent component then .error .blocked
  else
    let next := d.along l component
    if d.isFolder next then .ok next
    else if d.isTaken next || next.isSealed then .error .blocked
    else .error .missing

/-- The location that a path leads to. Every folder on the way has to exist, the
file or folder at the end need not. -/
def locate (d : Directory) (path : String) : Except Obstacle Location :=
  if !Path.isUsable path then .error .blocked
  else
    let (l, names) := Location.start path
    match names.getLast? with
    | none => .ok l
    | some last => do
      let l ← names.dropLast.foldlM d.enter l
      if isComponent last then .ok (d.along l last) else .error .blocked

/-- The path leads to something that exists. -/
def hasPath (d : Directory) (path : String) : Bool :=
  match d.locate path with
  | .ok l => d.isTaken l || d.isFolder l
  | .error _ => false

/-- The text of the file that a path leads to. -/
def read? (d : Directory) (path : String) : Option String :=
  match d.locate path with
  | .ok l => if d.isFolder l then none else d.files.get? l.key
  | .error _ => none

/-! ## Changing the content -/

/-- The directory with a folder at the location. -/
def addFolder (d : Directory) (l : Location) : Directory :=
  { d with folders := l.key :: d.folders }

/-- Make the folders along the components from the folder `l` on, up to the
first that cannot be made: whether all are there now, and the directory then. -/
def makeAlong (d : Directory) (l : Location) : List String → Bool × Directory
  | [] => (true, d)
  | c :: rest =>
    match d.enter l c with
    | .ok next => d.makeAlong next rest
    | .error .missing => (d.addFolder (d.along l c)).makeAlong (d.along l c) rest
    | .error .blocked => (false, d)

/-- The components before the dots at the end of a path. -/
def dropDots (names : List String) : List String :=
  (names.reverse.dropWhile (· == ".")).reverse

/-- Make all folders of a path: whether they are there now, and the directory
then. What was made before a failure stays. A folder that is named with a dot
behind it is not made itself, only the folders before it are. -/
def makeFolders (d : Directory) (path : String) : Bool × Directory :=
  if !Path.isUsable path then (false, d)
  else
    let (l, names) := Location.start path
    let names := names.filter (· != "")
    let named := dropDots names
    if named = names then d.makeAlong l names
    else match named.foldlM d.enter l with
      | .ok _ => (true, d)
      | .error .blocked => (false, d)
      | .error .missing =>
        match d.makeAlong l named.dropLast with
        | (true, d) => ((named.foldlM d.enter l).toBool, d)
        | (false, d) => (false, d)

/-- A name that only a folder can have. -/
def isFolderName (name : String) : Bool := name = "" || name = "." || name = ".."

/-- Write the file that a path leads to; its folder has to exist. -/
def write? (d : Directory) (path text : String) : Option Directory :=
  match d.locate path, (Location.start path).2.getLast? with
  | .ok l, some name =>
    if isFolderName name || d.isFolder l || l.isSealed then none
    else match Device.at? l with
      | some .sink => some d
      | some .full => none
      | none => some { d with files := d.files.insert l.key text }
  | _, _ => none

/-- The directory with a folder that is known to exist. -/
def withFolder (d : Directory) (path : String) : Directory :=
  let (l, names) := Location.start path
  let add (here : Directory × Location) (component : String) : Directory × Location :=
    let l := d.along here.2 component
    (here.1.addFolder l, l)
  (names.foldl add (d, l)).1

/-- The directory with a file that is known to exist, and the folder it is in. -/
def withFile (d : Directory) (path text : String) : Directory :=
  let d := d.withFolder (Path.parent path)
  let (l, names) := Location.start path
  { d with files := d.files.insert (names.foldl d.along l).key text }

/-! ## Comparing -/

/-- The files that are new or different in `after`. -/
def changes (before after : Directory) : List (String × String) :=
  after.files.entries.filter fun f => before.files.get? f.1 != some f.2

/-- A file that lies in the directory itself, given by the key of its location. -/
def isWithin (key : String) : Bool :=
  let first := key.toList.takeWhile (· != '/')
  first != [] && first != ['.', '.']

/-- The files in the directory itself that are new or different in `after`. -/
def changesWithin (before after : Directory) : List (String × String) :=
  (changes before after).filter fun f => isWithin f.1

end Directory

end SpellText
