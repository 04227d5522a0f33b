import SpellText.Text.Split

/-!
# Paths

Path texts with slashes between their components. `join` continues one path by
another, `parent` drops the last component.
-/

namespace SpellText.Path

/-- The longest path that a file can be reached by, in bytes. -/
def maxLength : Nat := 4095

/-- The path can lead to a file: it is not empty, not too long, and without the
null character. -/
def isUsable (path : String) : Bool :=
  !path.isEmpty && path.utf8ByteSize ≤ maxLength && !path.toList.contains '\x00'

/-- The path starts at the root. -/
def isAbsolute (path : String) : Bool := path.toList.head? == some '/'

/-- The path `tail` as seen from `base`. An absolute tail stands for itself. -/
def join (base tail : String) : String :=
  if isAbsolute tail || base.isEmpty then tail
  else if base.toList.getLast? == some '/' then base ++ tail
  else base ++ "/" ++ tail

/-- The components between slashes. -/
def components (s : List Char) : List (List Char) := Text.split '/' s

/-- Drop slashes and dot components at the end, given the path from its end. -/
def dropEnd : List Char → List Char
  | ['/'] => ['/']
  | '/' :: rest => dropEnd rest
  | '.' :: '/' :: rest => dropEnd ('/' :: rest)
  | s => s
termination_by s => s.length

/-- The path without its last component; empty when it has a single one. -/
def parent (path : String) : String :=
  let reversed := dropEnd path.toList.reverse
  let rest := reversed.dropWhile (· != '/')
  String.ofList (dropEnd rest).reverse

end SpellText.Path
