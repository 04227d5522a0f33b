import SpellText.Text.Alphanumeric
import SpellText.Text.Blank
import SpellText.Text.ByteOrder

/-!
# Environments

Variables with values, and the file format that adds to them: one assignment
`NAME=value` a line, with comments, quotes, escapes and references `$NAME` to
other variables. A value in quotes may go on over several lines.

Assignments never replace a variable that is set already. The first faulty line
ends the file; the assignments before it count. A value that no variable can
hold makes the whole file unfit (`addFile?`).
-/

namespace SpellText

/-- Variables by name. -/
abbrev Environment := List (String × String)

namespace Environment

open Text (isBlank isAlphanumeric)

/-! ## Looking up -/

/-- A variable as the system keeps it: its name, an equals sign, its value. -/
def entry (v : String × String) : List Char := v.1.toList ++ '=' :: v.2.toList

/-- What a variable answers to a name: what stands in its entry behind the name
and an equals sign. So `A=b` stands for `c` where `A` has the value `b=c`. -/
def answer? (name : String) (v : String × String) : Option String :=
  let start := name.toList ++ ['=']
  if !name.isEmpty && start.isPrefixOf (entry v) then
    some (String.ofList ((entry v).drop start.length))
  else none

/-- The value under a name. -/
def value? (e : Environment) (name : String) : Option String := e.findSome? (answer? name)

/-! ## Logical lines -/

/-- Where a line stands in its quotes. -/
inductive Quoting
  | plain
  | escape
  /-- Behind a blank, where a comment may begin. -/
  | blank
  | single
  | singleEscape
  | double
  | doubleEscape
  | comment
  deriving DecidableEq

/-- The quoting behind a further character. -/
def Quoting.next (q : Quoting) (c : Char) : Quoting :=
  match q with
  | comment => comment
  | escape => plain
  | single => if c = '\\' then singleEscape else if c = '\'' then plain else single
  | singleEscape => single
  | double => if c = '\\' then doubleEscape else if c = '"' then plain else double
  | doubleEscape => double
  | blank =>
    if c = '#' then comment
    else if c = '\\' then escape else if c = '"' then double else if c = '\'' then single
    else plain
  | plain =>
    if isBlank c && c != '\n' && c != '\r' then blank
    else if c = '\\' then escape else if c = '"' then double else if c = '\'' then single
    else plain

/-- The text of a line before its comment, and the quoting at its end. -/
def scanLine (q : Quoting) : List Char → List Char × Quoting
  | [] => ([], q)
  | c :: rest =>
    match q.next c with
    | .comment => ([], .comment)
    | q => let (s, q) := scanLine q rest; (c :: s, q)

/-- The lines of a text, each with its line break. -/
def rawLines : List Char → List (List Char)
  | [] => []
  | c :: rest =>
    if c = '\n' then ['\n'] :: rawLines rest
    else match rawLines rest with
      | [] => [[c]]
      | line :: lines => (c :: line) :: lines

/-- A line without its line break. -/
def chomp (s : List Char) : List Char :=
  match s.reverse with
  | '\n' :: '\r' :: r => r.reverse
  | '\n' :: r => r.reverse
  | _ => s

/-- Put lines together that belong to one assignment. `buffer` holds what has
come so far; a comment is dropped. A text that ends inside of quotes, or with
a blank, ends in a faulty line, given as `none`. -/
def logicalLines (buffer : List Char) (q : Quoting) : List (List Char) → List (Option (List Char))
  | [] => if q = .plain then [] else [none]
  | line :: lines =>
    let whole := buffer ++ line
    if (Text.trimStart whole).head? = some '#' then some [] :: logicalLines [] .plain lines
    else match scanLine q line with
      | (_, .plain) => some (chomp whole) :: logicalLines [] .plain lines
      | (s, .comment) => some (buffer ++ s) :: logicalLines [] .plain lines
      | (_, q) => logicalLines whole q lines

/-! ## Assignments -/

/-- A reference to a variable that is being read. -/
inductive Reference
  | none
  /-- Behind a dollar sign. -/
  | bare (name : List Char)
  /-- Inside of braces. -/
  | braced (name : List Char)
  deriving DecidableEq

/-- What has been read of a value. -/
structure Progress where
  /-- The value so far, the latest character first. -/
  output : List Char
  single : Bool
  double : Bool
  escaped : Bool
  /-- Only blanks and a comment may follow. -/
  ended : Bool
  reference : Reference

/-- What a name refers to: the value of a variable, or nothing. -/
def refer (known : Environment) (name : List Char) : List Char :=
  ((known.value? (String.ofList name)).getD "").toList

/-- Take in what the pending reference stands for. -/
def Progress.resolve (known : Environment) (p : Progress) (name : List Char) : Progress :=
  { p with output := (refer known name.reverse).reverse ++ p.output, reference := .none }

/-- Take in a character behind a reference that it does not belong to. -/
def Progress.leave (known : Environment) (p : Progress) (name : List Char) (c : Char) : Progress :=
  let p := p.resolve known name
  if c = '$' then { p with reference := .bare [] } else { p with output := c :: p.output }

/-- Take in a character behind a backslash. -/
def Progress.unescape? (p : Progress) (c : Char) : Option Progress :=
  if c = '\\' || c = '\'' || c = '"' || c = '$' || c = ' ' then
    some { p with output := c :: p.output, escaped := false }
  else if c = 'n' then some { p with output := '\n' :: p.output, escaped := false }
  else none

/-- Take in a character of a value. The name in a reference goes on as long as
letters and digits of any script follow. -/
def Progress.step? (known : Environment) (p : Progress) (c : Char) : Option Progress :=
  if p.ended then if c = ' ' || c = '\t' then some p else none
  else if p.escaped then p.unescape? c
  else if p.single then
    if c = '\'' then some { p with single := false } else some { p with output := c :: p.output }
  else match p.reference with
    | .bare name =>
      if isAlphanumeric c then some { p with reference := .bare (c :: name) }
      else if c = '\x7b' && name.isEmpty then some { p with reference := .braced [] }
      else some (p.leave known name c)
    | .braced name =>
      if c = '\x7d' then some (p.resolve known name)
      else some { p with reference := .braced (c :: name) }
    | .none =>
      if c = '$' then some { p with reference := .bare [] }
      else if p.double then
        if c = '"' then some { p with double := false }
        else if c = '\\' then some { p with escaped := true }
        else some { p with output := c :: p.output }
      else if c = '\'' then some { p with single := true }
      else if c = '"' then some { p with double := true }
      else if c = '\\' then some { p with escaped := true }
      else if c = ' ' || c = '\t' then some { p with ended := true }
      else some { p with output := c :: p.output }

/-- Read the rest of a value. -/
def Progress.finish? (known : Environment) (p : Progress) : List Char → Option (List Char)
  | [] =>
    if p.single || p.double then none
    else match p.reference with
      | .none => some p.output.reverse
      | .bare name => some (p.resolve known name).output.reverse
      | .braced _ => none
  | c :: rest =>
    if p.ended && c = '#' then Progress.finish? known p []
    else match p.step? known c with
      | some p => Progress.finish? known p rest
      | none => none

/-- Read a value. -/
def readValue? (known : Environment) (s : List Char) : Option String :=
  (Progress.finish? known ⟨[], false, false, false, false, .none⟩ s).map String.ofList

/-- The name of a variable at the start of a line. -/
def name? : List Char → Option (List Char × List Char)
  | [] => none
  | c :: rest =>
    if c.isAlpha || c = '_' then
      some ((c :: rest).span fun c => c.isAlphanum || c = '_' || c = '.')
    else none

/-- The text behind an equals sign. -/
def afterEquals? (s : List Char) : Option (List Char) :=
  match Text.trimStart s with
  | '=' :: rest => some rest
  | _ => none

/-- The name that a line assigns to, and the text of the value. A name may have
the word `export` in front. -/
def assignee? (s : List Char) : Option (List Char × List Char) := do
  let (name, rest) ← name? s
  match afterEquals? rest with
  | some value => some (name, value)
  | none =>
    if name = "export".toList then
      let (name, rest) ← name? (Text.trimStart rest)
      let value ← afterEquals? rest
      some (name, value)
    else none

/-- The outcome of a line. -/
inductive LineOutcome
  /-- Blank or a comment. -/
  | nothing
  | assignment (name value : String)
  | faulty

/-- Read a line, given what names refer to. -/
def readLine (known : Environment) (line : List Char) : LineOutcome :=
  let s := Text.trim line
  if s.isEmpty || s.head? = some '#' then .nothing
  else match assignee? s with
    | none => .faulty
    | some (name, value) =>
      let value := Text.trimStart value
      if value.isEmpty || value.head? = some '#' then .assignment (String.ofList name) ""
      else match readValue? known value with
        | some value => .assignment (String.ofList name) value
        | none => .faulty

/-- A variable can hold the value: it is without the null character. -/
def canHold (value : String) : Bool := !value.toList.contains '\x00'

/-- Give a variable its first value. -/
def assign? (e : Environment) (name value : String) : Option Environment :=
  if (e.value? name).isSome then some e
  else if canHold value then some (e ++ [(name, value)])
  else none

/-- Carry out the assignments of the lines in order. References see what the
lines before them have assigned. -/
def assignAll? (e : Environment) : List (Option (List Char)) → Option Environment
  | [] => some e
  | none :: _ => some e
  | some line :: rest =>
    match readLine e line with
    | .nothing => assignAll? e rest
    | .faulty => some e
    | .assignment name value =>
      match e.assign? name value with
      | some e => assignAll? e rest
      | none => none

/-- The environment with the assignments of a file added; nothing if a variable
is given a value that it cannot hold. -/
def addFile? (e : Environment) (text : String) : Option Environment :=
  assignAll? e (logicalLines [] .plain (rawLines (Text.dropByteOrderMark text.toList)))

end Environment

end SpellText
