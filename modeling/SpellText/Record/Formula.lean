import SpellText.Formula.Basic
import SpellText.Record.Decoding

/-!
# Formulas in game data

A part of a formula is a record tagged with its kind. Since a field may hold a
part or a list of parts, one pass over the value reads every node both ways
(`Reading`), and `partOf?` picks what each field asks for.

A part of a kind without a rule decodes all the same, as long as the fields
that have a meaning are well-formed.
-/

namespace SpellText.Record

open Formula (Part)

/-- What a value is when it is read as a part and when it is read as a list of
parts. -/
structure Reading where
  json : Json
  part? : Option Part
  parts? : Option (List Part)

/-- The fields of a part. -/
def partFields : List (List String) :=
  [["__type"], ["mDataValue"], ["mNumber"], ["mPart1"], ["mPart2"], ["mSubparts"],
    ["mFormulaParts"]]

/-- A field of type `β` that may be absent or null. -/
def Reading.field? {β : Type} (read : Reading → Option β) : Option Reading → Option (Option β)
  | none => some none
  | some r =>
    match r.json with
    | .null => some none
    | _ => (read r).map some

/-- A part of the given kind from its decoded fields. -/
def partOfKind (kind name : Option String) (x : Option Float) (left right : Option Part)
    (subparts parts : Option (List Part)) : Part :=
  match kind with
  | some "NamedDataValueCalculationPart" => .named (name.getD "")
  | some "StatByNamedDataValueCalculationPart" => .stat (name.getD "")
  | some "NumberCalculationPart" => .number (x.getD 0.0)
  | some "ProductOfSubPartsCalculationPart" =>
    .product (left.getD (.sum [])) (right.getD (.sum []))
  | some "SumOfSubPartsCalculationPart" => .sum (subparts.getD [])
  | kind =>
    match parts with
    | some parts => .sum parts
    | none => .unsupported (kind.getD "<untyped>")

/-- The part with the given fields. -/
def partOf? (shape : Shape Reading) : Option Part := do
  match ← slots? partFields shape with
  | [kind, name, x, left, right, subparts, parts] =>
    let kind ← Reading.field? (·.json.string?) kind
    let name ← Reading.field? (·.json.string?) name
    let x ← Reading.field? (·.json.float?) x
    let left ← Reading.field? (·.part?) left
    let right ← Reading.field? (·.part?) right
    let subparts ← Reading.field? (·.parts?) subparts
    let parts ← Reading.field? (·.parts?) parts
    return partOfKind kind name x left right subparts parts
  | _ => none

mutual

/-- Read a value both ways. -/
def reading : Json → Reading
  | .array items =>
    let rs := readings items
    ⟨.array items, partOf? (.items rs), rs.mapM (·.part?)⟩
  | .object members => ⟨.object members, partOf? (.members (memberReadings members)), none⟩
  | v => ⟨v, none, none⟩

/-- Read the items of an array. -/
def readings : List Json → List Reading
  | [] => []
  | v :: rest => reading v :: readings rest

/-- Read the members of an object. -/
def memberReadings : List (String × Json) → List (String × Reading)
  | [] => []
  | (key, v) :: rest => (key, reading v) :: memberReadings rest

end

/-- The part that a value stands for. -/
def part? (v : Json) : Option Part := (reading v).part?

/-- The formula that a value stands for. -/
def formula? (v : Json) : Option Formula := do
  match ← slots? [["mFormulaParts"]] (← shape? v) with
  | [parts] => return ⟨← defaulted? [] (list? part?) parts⟩
  | _ => none

end SpellText.Record
