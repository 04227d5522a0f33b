/-!
# TOML documents

A document gives values to dotted keys, under the table that the last header
opened. It is kept flat: every definition stands under its full path, in which
an item of an array of tables has its number. The rules on which keys and
tables may be defined again are then questions about single paths
(`Document.openTable?`, `Document.openItem?`, `Document.define?`).
-/

namespace SpellText

/-- A TOML value. The members of an inline table stand under their dotted keys. -/
inductive Toml
  | string (s : String)
  | integer (n : Int)
  | float (x : Float)
  | boolean (b : Bool)
  /-- A date, a time or both, as written. -/
  | moment (s : String)
  | array (items : List Toml)
  | table (members : List (List String × Toml))

namespace Toml

instance : Inhabited Toml := ⟨boolean false⟩

/-- The text of a string. -/
def string? : Toml → Option String
  | string s => some s
  | _ => none

/-- The items of an array. -/
def array? : Toml → Option (List Toml)
  | array items => some items
  | _ => none

/-- A step of a path: a key, or an item of an array of tables. -/
inductive Step
  | key (k : String)
  | item (n : Nat)
  deriving DecidableEq

/-- A path from the top of a document. -/
abbrev Trail := List Step

/-- What stands at a path. -/
inductive Entry
  /-- A value; an inline table is closed. -/
  | value (v : Toml)
  /-- A table that came to be because a header went through it. -/
  | implied
  /-- A table that a header opened. -/
  | opened
  /-- A table that came to be because a dotted key went through it. -/
  | dotted
  /-- An array of tables with `count` items so far. -/
  | items (count : Nat)

/-- The definitions of a document by path. -/
structure Document where
  entries : List (Trail × Entry)

namespace Document

/-- The document without definitions. -/
def empty : Document := ⟨[]⟩

/-- What stands at a path. The latest definition counts. -/
def find? (d : Document) (t : Trail) : Option Entry :=
  (d.entries.find? fun e => e.1 = t).map (·.2)

/-- Put an entry at a path. -/
def put (d : Document) (t : Trail) (e : Entry) : Document := ⟨(t, e) :: d.entries⟩

/-- Go through the keys of a header; tables that are not there come to be. -/
def throughHeader? (d : Document) (t : Trail) : List String → Option (Document × Trail)
  | [] => some (d, t)
  | k :: ks =>
    let here := t ++ [.key k]
    match d.find? here with
    | none => (d.put here .implied).throughHeader? here ks
    | some (.value _) => none
    | some (.items n) => d.throughHeader? (here ++ [.item n]) ks
    | some _ => d.throughHeader? here ks

/-- Go through the keys before the last of a dotted key. An array of tables is
entered at its latest item; a table that a header opened cannot be entered. -/
def throughKey? (d : Document) (t : Trail) : List String → Option (Document × Trail)
  | [] => some (d, t)
  | k :: ks =>
    let here := t ++ [.key k]
    match d.find? here with
    | none => (d.put here .dotted).throughKey? here ks
    | some .dotted => d.throughKey? here ks
    | some .implied => d.throughKey? here ks
    | some (.items n) => d.throughKey? (here ++ [.item n]) ks
    | some .opened => none
    | some (.value _) => none

/-- The table at a path is one that only dotted keys give values to. -/
def isDotted (d : Document) (t : Trail) : Bool :=
  match d.find? t with
  | some .dotted => true
  | _ => false

/-- Open the table that a header names. -/
def openTable? (d : Document) (keys : List String) : Option (Document × Trail) := do
  let last ← keys.getLast?
  let (d, t) ← d.throughHeader? [] keys.dropLast
  let here := t ++ [.key last]
  match d.find? here with
  | none => some (d.put here .opened, here)
  | some .implied => some (d.put here .opened, here)
  | some _ => none

/-- Open the next item of the array of tables that a header names. -/
def openItem? (d : Document) (keys : List String) : Option (Document × Trail) := do
  let last ← keys.getLast?
  let (d, t) ← d.throughHeader? [] keys.dropLast
  let here := t ++ [.key last]
  match d.find? here with
  | none => some (d.put here (.items 1), here ++ [.item 1])
  | some (.items n) => some (d.put here (.items (n + 1)), here ++ [.item (n + 1)])
  | some _ => none

/-- Give a value to a dotted key under the table `t`. No key gets two values,
and a key with dots may pass through tables that headers made but not end in one. -/
def define? (d : Document) (t : Trail) (keys : List String) (v : Toml) : Option Document := do
  let last ← keys.getLast?
  let (d, parent) ← d.throughKey? t keys.dropLast
  if !keys.dropLast.isEmpty && !d.isDotted parent then none
  let here := parent ++ [.key last]
  match d.find? here with
  | none => some (d.put here (.value v))
  | some _ => none

/-- What stands under a key at the top. -/
def top? (d : Document) (k : String) : Option Entry := d.find? [.key k]

/-- The keys on a path. -/
def keysOf (t : Trail) : List String :=
  t.filterMap fun
    | .key k => some k
    | .item _ => none

/-- The values of a document under their dotted keys. -/
def toMembers (d : Document) : List (List String × Toml) :=
  d.entries.reverse.filterMap fun e =>
    match e.2 with
    | .value v => some (keysOf e.1, v)
    | _ => none

end Document

end Toml

end SpellText
