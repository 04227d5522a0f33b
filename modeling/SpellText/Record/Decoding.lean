import SpellText.Json.Basic

/-!
# Decoding records

A record is written as an object or as the array of its fields in order. An
object may have further members; an array may stop early but may not have
further items. A field that may be left out may also be `null`. No value is
converted: a number is no string, and a string is no number.
-/

namespace SpellText.Record

universe u v

variable {α : Type u} {β : Type v}

/-- The two ways to write a record, over some form of its fields. -/
inductive Shape (α : Type u)
  | members (ms : List (String × α))
  | items (xs : List α)

/-- The record that a value may be. -/
def shape? : Json → Option (Shape Json)
  | .object ms => some (.members ms)
  | .array xs => some (.items xs)
  | _ => none

/-- The members under one of the names of a field: none, or one. -/
def slot? (names : List String) (ms : List (String × α)) : Option (Option α) :=
  match ms.filter fun m => names.contains m.1 with
  | [] => some none
  | [m] => some (some m.2)
  | _ => none

/-- The fields of a record in order, each given by its possible names. -/
def slots? (fields : List (List String)) : Shape α → Option (List (Option α))
  | .members ms => fields.mapM (slot? · ms)
  | .items xs =>
    if xs.length ≤ fields.length then
      some (xs.map some ++ List.replicate (fields.length - xs.length) none)
    else none

/-- The value of a field that may be absent or null. -/
def optional? (decode : Json → Option β) : Option Json → Option (Option β)
  | none => some none
  | some .null => some none
  | some v => (decode v).map some

/-- The value of a field that counts as `default` when absent or null. -/
def defaulted? (default : β) (decode : Json → Option β) (v : Option Json) : Option β :=
  (optional? decode v).map (·.getD default)

/-- A value or null. -/
def nullable? (decode : Json → Option β) (v : Json) : Option (Option β) :=
  optional? decode (some v)

/-- The items of an array. -/
def list? (decode : Json → Option β) (v : Json) : Option (List β) :=
  v.array?.bind (List.mapM decode)

/-- Numbers by rank. -/
def ranks? : Json → Option (List Float) := list? Json.float?

end SpellText.Record
