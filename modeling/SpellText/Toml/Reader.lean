import SpellText.Text.ByteOrder
import SpellText.Toml.Scalar

/-!
# Reading TOML

A reader for TOML documents: lines with a header, or with a key and its value,
and comments. A document with any fault is refused as a whole.
-/

namespace SpellText.Toml.Reader

/-! ## Blanks and comments -/

/-- A blank inside a line. -/
def isSpace (c : Char) : Bool := c == ' ' || c == '\t'

/-- The text after blanks. -/
def skipSpace (s : List Char) : List Char := s.dropWhile isSpace

/-- A character that may not be written as it is: a control character other than tab. -/
def isControl (c : Char) : Bool := (c.toNat < 0x20 && c != '\t') || c.toNat == 0x7F

/-- The text behind a line break. -/
def newline? : List Char → Option (List Char)
  | '\n' :: s => some s
  | '\r' :: '\n' :: s => some s
  | _ => none

/-- The text behind a comment, if there is one, up to the line break. -/
def skipComment : List Char → List Char
  | '#' :: s => s.dropWhile (!isControl ·)
  | s => s

/-- The text behind blanks, comments and line breaks, from inside of a comment or not. -/
def skipFrom (comment : Bool) : List Char → List Char
  | [] => []
  | '\n' :: s => skipFrom false s
  | '\r' :: '\n' :: s => skipFrom false s
  | c :: s =>
    if comment then (if isControl c then c :: s else skipFrom true s)
    else if c == '#' then skipFrom true s
    else if isSpace c then skipFrom false s
    else c :: s

/-- The text behind blanks, comments and line breaks. -/
def skipAll (s : List Char) : List Char := skipFrom false s

/-! ## Strings -/

/-- The value of hexadecimal digits. -/
def hexValue? (ds : List Char) : Option Nat :=
  if ds.all Scalar.isHexDigit then some (Scalar.valueIn 16 ds) else none

/-- The character with the code point that `count` hexadecimal digits give. -/
def codePoint? (count : Nat) (s : List Char) : Option (Char × List Char) := do
  let ds := s.take count
  if ds.length ≠ count then none
  let n ← hexValue? ds
  if h : n.isValidChar then some (Char.ofNatAux n h, s.drop count) else none

/-- The character of an escape, behind the backslash. -/
def escape? : List Char → Option (Char × List Char)
  | 'b' :: s => some ('\x08', s)
  | 't' :: s => some ('\t', s)
  | 'n' :: s => some ('\n', s)
  | 'f' :: s => some ('\x0c', s)
  | 'r' :: s => some ('\r', s)
  | 'e' :: s => some ('\x1b', s)
  | '"' :: s => some ('"', s)
  | '\\' :: s => some ('\\', s)
  | 'x' :: s => codePoint? 2 s
  | 'u' :: s => codePoint? 4 s
  | 'U' :: s => codePoint? 8 s
  | _ => none

/-- The rest of a string on one line, behind its opening quote and after the
characters `done` (the latest first). -/
def basic? : Nat → List Char → List Char → Option (String × List Char)
  | 0, _, _ => none
  | _, done, '"' :: s => some (String.ofList done.reverse, s)
  | fuel + 1, done, '\\' :: s => do
    let (c, s) ← escape? s
    basic? fuel (c :: done) s
  | fuel + 1, done, c :: s => if isControl c then none else basic? fuel (c :: done) s
  | _, _, [] => none

/-- A literal string on one line, behind its opening quote. -/
def literal? (s : List Char) : Option (String × List Char) :=
  match s.span fun c => c != '\'' && !isControl c with
  | (text, '\'' :: rest) => some (String.ofList text, rest)
  | _ => none

/-- The text behind blanks and line breaks. -/
def skipBlankLines : List Char → List Char
  | [] => []
  | '\n' :: s => skipBlankLines s
  | '\r' :: '\n' :: s => skipBlankLines s
  | c :: s => if isSpace c then skipBlankLines s else c :: s

/-- A backslash at the end of a line: the text behind the blanks and line
breaks that follow it. -/
def foldedLine? (s : List Char) : Option (List Char) :=
  (newline? (skipSpace s)).map skipBlankLines

/-- The end of a string over several lines: three quotes, before which one or
two more may stand as text. -/
def tripleEnd? (quote : Char) (s : List Char) : Option (List Char × List Char) :=
  let run := (s.takeWhile (· == quote)).length
  if run < 3 then none
  else
    let extra := min (run - 3) 2
    some (List.replicate extra quote, s.drop (extra + 3))

/-- The rest of a string over several lines. Line breaks stand for themselves. -/
def multiline? (quote : Char) : Nat → List Char → List Char → Option (String × List Char)
  | 0, _, _ => none
  | fuel + 1, done, s =>
    match tripleEnd? quote s with
    | some (extra, rest) => some (String.ofList (done.reverse ++ extra), rest)
    | none =>
      match s with
      | [] => none
      | '\n' :: rest => multiline? quote fuel ('\n' :: done) rest
      | '\r' :: '\n' :: rest => multiline? quote fuel ('\n' :: '\r' :: done) rest
      | c :: rest =>
        if c == '\\' && quote == '"' then
          match foldedLine? rest with
          | some rest => multiline? quote fuel done rest
          | none =>
            match escape? rest with
            | some (e, rest) => multiline? quote fuel (e :: done) rest
            | none => none
        else if isControl c then none
        else multiline? quote fuel (c :: done) rest

/-- A string over several lines, behind its opening quotes. A line break right
behind them does not count. -/
def multilineText? (quote : Char) (s : List Char) : Option (String × List Char) :=
  multiline? quote (s.length + 1) [] ((newline? s).getD s)

/-- A quoted string on one line. -/
def quoted? : List Char → Option (String × List Char)
  | '"' :: s => basic? (s.length + 1) [] s
  | '\'' :: s => literal? s
  | _ => none

/-- A string. -/
def string? : List Char → Option (String × List Char)
  | '"' :: '"' :: '"' :: s => multilineText? '"' s
  | '\'' :: '\'' :: '\'' :: s => multilineText? '\'' s
  | s => quoted? s

/-! ## Keys -/

/-- A character of a bare key. -/
def isKeyChar (c : Char) : Bool := c.isAlphanum || c == '_' || c == '-'

/-- A key without dots. -/
def simpleKey? (s : List Char) : Option (String × List Char) :=
  match s.span isKeyChar with
  | ([], s) => quoted? s
  | (k, rest) => some (String.ofList k, rest)

/-- A dotted key with at most `parts` parts, and with blanks around it. -/
def keyOf? : Nat → List Char → Option (List String × List Char)
  | 0, _ => none
  | parts + 1, s => do
    let (k, rest) ← simpleKey? (skipSpace s)
    match skipSpace rest with
    | '.' :: rest =>
      let (ks, rest) ← keyOf? parts rest
      some (k :: ks, rest)
    | rest => some ([k], rest)

/-- How many parts a dotted key may have, and how deep arrays and inline tables
may be nested. -/
def nestingLimit : Nat := 80

/-- A dotted key, with blanks around it. -/
def key? (s : List Char) : Option (List String × List Char) := keyOf? nestingLimit s

/-! ## Values -/

/-- Items of an array behind `done` (the latest first), given how an item is read. -/
def items? (item? : List Char → Option (Toml × List Char)) :
    Nat → List Toml → List Char → Option (Toml × List Char)
  | 0, _, _ => none
  | fuel + 1, done, s =>
    match skipAll s with
    | ']' :: rest => some (.array done.reverse, rest)
    | s =>
      match item? s with
      | none => none
      | some (v, rest) =>
        match skipAll rest with
        | ',' :: rest => items? item? fuel (v :: done) rest
        | ']' :: rest => some (.array (v :: done).reverse, rest)
        | _ => none

/-- Members of an inline table behind those of `d`, given how a value is read.
Comments and line breaks may stand between all parts except inside of a key. -/
def members? (item? : List Char → Option (Toml × List Char)) :
    Nat → Document → List Char → Option (Toml × List Char)
  | 0, _, _ => none
  | fuel + 1, d, s =>
    match skipAll s with
    | '\x7d' :: rest => some (.table d.toMembers, rest)
    | s => do
      let (ks, rest) ← key? s
      match skipAll rest with
      | '=' :: rest =>
        let (v, rest) ← item? (skipAll rest)
        let d ← d.define? [] ks v
        match skipAll rest with
        | ',' :: rest => members? item? fuel d rest
        | '\x7d' :: rest => some (.table d.toMembers, rest)
        | _ => none
      | _ => none

/-- A string, or a value that is written without quotes. -/
def scalar? (s : List Char) : Option (Toml × List Char) :=
  match s with
  | '"' :: _ => (string? s).map fun (t, rest) => (.string t, rest)
  | '\'' :: _ => (string? s).map fun (t, rest) => (.string t, rest)
  | s =>
    let (w, rest) := Scalar.word s
    (Scalar.value? w).map (·, rest)

/-- A value at the start of the text, in which arrays and inline tables are
nested at most `depth` deep. -/
def value? : Nat → List Char → Option (Toml × List Char)
  | 0, '[' :: _ => none
  | 0, '\x7b' :: _ => none
  | depth + 1, '[' :: rest => items? (value? depth) (rest.length + 1) [] rest
  | depth + 1, '\x7b' :: rest => members? (value? depth) (rest.length + 1) .empty rest
  | _, s => scalar? s

/-! ## Documents -/

/-- The text behind the end of a line; the end of the text also ends a line. -/
def lineEnd? (s : List Char) : Option (List Char) :=
  match skipComment (skipSpace s) with
  | [] => some []
  | s => newline? s

/-- A header in brackets: whether it opens an item, and its key. -/
def header? : List Char → Option (Bool × List String × List Char)
  | '[' :: '[' :: s => do
    let (ks, rest) ← key? s
    match rest with
    | ']' :: ']' :: rest => some (true, ks, rest)
    | _ => none
  | '[' :: s => do
    let (ks, rest) ← key? s
    match rest with
    | ']' :: rest => some (false, ks, rest)
    | _ => none
  | _ => none

/-- Read the lines of a document behind `d`, under the table `t`. -/
def lines? : Nat → Document → Trail → List Char → Option Document
  | 0, _, _, _ => none
  | fuel + 1, d, t, s =>
    match skipAll s with
    | [] => some d
    | '[' :: rest => do
      let (isItem, ks, rest) ← header? ('[' :: rest)
      let (d, t) ← if isItem then d.openItem? ks else d.openTable? ks
      lines? fuel d t (← lineEnd? rest)
    | s => do
      let (ks, rest) ← key? s
      match rest with
      | '=' :: rest =>
        let (v, rest) ← value? nestingLimit (skipSpace rest)
        let d ← d.define? t ks v
        lines? fuel d t (← lineEnd? rest)
      | _ => none

end Reader

/-- Read a document. -/
def parse? (text : String) : Option Document :=
  let s := Text.dropByteOrderMark text.toList
  Reader.lines? (s.length + 1) .empty [] s

end SpellText.Toml
