import SpellText.Record.Decoding
import SpellText.Tally

/-!
# Reports

A tally as a JSON record. Unlike the records of game data a report is written by
this program alone, and nothing may be missing when it is read again.
-/

namespace SpellText

/-- The diagnostic as a record. -/
def Diagnostic.toJson (d : Diagnostic) : Json :=
  .object [("champion", .string d.champion), ("ability", .string d.ability),
    ("placeholder", .string d.placeholder), ("message", .string d.message)]

/-- The tally as a record. -/
def Tally.toJson (t : Tally) : Json :=
  .object [("replaced", .number (.whole t.replaced)), ("skipped", .number (.whole t.skipped)),
    ("errors", .array (t.errors.map Diagnostic.toJson))]

namespace Record

universe u

variable {β : Type u}

/-- The value of a field that has to be present. -/
def required? (decode : Json → Option β) (v : Option Json) : Option β := v.bind decode

/-- A diagnostic. -/
def diagnostic? (v : Json) : Option Diagnostic := do
  match ← slots? [["champion"], ["ability"], ["placeholder"], ["message"]] (← shape? v) with
  | [champion, ability, placeholder, message] =>
    return ⟨← required? Json.string? champion, ← required? Json.string? ability,
      ← required? Json.string? placeholder, ← required? Json.string? message⟩
  | _ => none

/-- A tally. -/
def tally? (v : Json) : Option Tally := do
  match ← slots? [["replaced"], ["skipped"], ["errors"]] (← shape? v) with
  | [replaced, skipped, errors] =>
    return ⟨← required? Json.count? replaced, ← required? Json.count? skipped,
      ← required? (list? diagnostic?) errors⟩
  | _ => none

end Record

end SpellText
