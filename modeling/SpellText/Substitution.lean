import SpellText.Marker
import SpellText.Placeholder
import SpellText.Tally

/-!
# Substitution

Replacing the markers in the texts of a champion. Every marker is resolved on
its own: an answer takes its place, and without one the marker stays as it is.
A tally is carried through from left to right.

`Context.fill` does this for every string in a JSON tree. `Champion.fillRecord`
does it for a champion's record of texts: the items of `spells` are texts of the
ability of their slot, `passive` that of the passive ability, and other texts
belong to no ability.
-/

namespace SpellText

/-- Where a text stands: the champion, the ability it belongs to, if any, and
the locale it is written in. -/
structure Context where
  champion : Champion
  ability : Option Ability
  locale : String

namespace Context

/-- The name under which faults of a text are reported. -/
def abilityName (x : Context) : String :=
  match x.ability with
  | some a => a.name
  | none => "global"

/-- The report of a fault. -/
def diagnostic (x : Context) (placeholder : String) (f : Fault) : Diagnostic :=
  ⟨x.champion.name, x.abilityName, placeholder, f.message⟩

/-- Count the answer to a placeholder; gives the text to put in its place. -/
def record (x : Context) (placeholder : List Char) (answer : Option (Except Fault String))
    (t : Tally) : Option String × Tally :=
  match answer with
  | none => (none, t.countSkipped)
  | some (.ok text) => (some text, t.countReplaced)
  | some (.error f) =>
    match f.severity with
    | .skip => (none, t.countSkipped)
    | .failure => (none, t.countFailure (x.diagnostic (String.ofList placeholder) f))

/-- Resolve the placeholder of a marker; gives the text to put in its place.
The resource name is not counted. -/
def resolve (x : Context) (placeholder : List Char) (t : Tally) : Option String × Tally :=
  if isResourceName placeholder then (some (x.champion.resourceName x.locale), t)
  else x.record placeholder ((Request.ofChars placeholder).answer? x.champion x.ability) t

/-- Resolve a piece of a text. -/
def fillPiece (x : Context) (p : Piece) (t : Tally) : List Char × Tally :=
  match p with
  | .literal c => ([c], t)
  | .marker inner =>
    match x.resolve (Text.trim inner) t with
    | (some text, t) => (text.toList, t)
    | (none, t) => (p.chars, t)

/-- Resolve the pieces of a text from left to right. -/
def fillPieces (x : Context) : List Piece → Tally → List Char × Tally
  | [], t => ([], t)
  | p :: rest, t =>
    let (s, t) := x.fillPiece p t
    let (s', t) := x.fillPieces rest t
    (s ++ s', t)

theorem fillPieces_cons (x : Context) (p : Piece) (ps : List Piece) (t : Tally) :
    x.fillPieces (p :: ps) t = ((x.fillPiece p t).1 ++ (x.fillPieces ps (x.fillPiece p t).2).1,
      (x.fillPieces ps (x.fillPiece p t).2).2) :=
  rfl

/-- Resolve the markers of a text. -/
def fillText (x : Context) (text : String) (t : Tally) : String × Tally :=
  let (s, t) := x.fillPieces (Piece.ofChars text.toList) t
  (String.ofList s, t)

mutual

/-- Resolve the markers of every string in a tree. -/
def fill (x : Context) : Json → Tally → Json × Tally
  | .string s, t =>
    let (s, t) := x.fillText s t
    (.string s, t)
  | .array items, t =>
    let (items, t) := x.fillItems items t
    (.array items, t)
  | .object members, t =>
    let (members, t) := x.fillMembers members t
    (.object members, t)
  | .null, t => (.null, t)
  | .bool b, t => (.bool b, t)
  | .number n, t => (.number n, t)

/-- Resolve the markers of every string in the items of an array. -/
def fillItems (x : Context) : List Json → Tally → List Json × Tally
  | [], t => ([], t)
  | item :: rest, t =>
    let (item, t) := x.fill item t
    let (rest, t) := x.fillItems rest t
    (item :: rest, t)

/-- Resolve the markers of every string in the members of an object. -/
def fillMembers (x : Context) : List (String × Json) → Tally → List (String × Json) × Tally
  | [], t => ([], t)
  | (key, v) :: rest, t =>
    let (v, t) := x.fill v t
    let (rest, t) := x.fillMembers rest t
    ((key, v) :: rest, t)

end

end Context

/-! ## Records -/

namespace Champion

/-- The member of a record that holds the texts of the spells. -/
def spellsField : String := "spells"

/-- The member of a record that holds the text of the passive ability. -/
def passiveField : String := "passive"

/-- Resolve the texts of the spells from a slot on. -/
def fillSpells (c : Champion) (locale : String) : Nat → List Json → Tally → List Json × Tally
  | _, [], t => ([], t)
  | slot, text :: rest, t =>
    let (text, t) := Context.fill ⟨c, c.abilityOfSlot? slot, locale⟩ text t
    let (rest, t) := c.fillSpells locale (slot + 1) rest t
    (text :: rest, t)

/-- Resolve a member of a record. Spells that are no list stay as they are, and
so does the passive text where the champion has no data for it. -/
def fillField (c : Champion) (locale : String) (field : String) (v : Json) (t : Tally) :
    Json × Tally :=
  if field = spellsField then
    match v with
    | .array texts =>
      let (texts, t) := c.fillSpells locale 0 texts t
      (.array texts, t)
    | v => (v, t)
  else if field = passiveField then
    match c.ability? passiveKey with
    | some passive => Context.fill ⟨c, some passive, locale⟩ v t
    | none => (v, t)
  else Context.fill ⟨c, none, locale⟩ v t

theorem fillField_spells (c : Champion) (locale : String) (texts : List Json) (t : Tally) :
    c.fillField locale spellsField (.array texts) t
      = (.array (c.fillSpells locale 0 texts t).1, (c.fillSpells locale 0 texts t).2) :=
  rfl

theorem fillField_spells_of_not_array (c : Champion) (locale : String) {v : Json}
    (h : ∀ texts, v ≠ .array texts) (t : Tally) : c.fillField locale spellsField v t = (v, t) := by
  unfold fillField
  rw [if_pos rfl]
  split
  · exact absurd rfl (h _)
  · rfl

theorem fillField_passive {c : Champion} {passive : Ability}
    (h : c.ability? passiveKey = some passive) (locale : String) :
    c.fillField locale passiveField = Context.fill ⟨c, some passive, locale⟩ := by
  funext v t
  unfold fillField
  rw [if_neg (by decide), if_pos rfl, h]

theorem fillField_passive_none {c : Champion} (h : c.ability? passiveKey = none) (locale : String)
    (v : Json) (t : Tally) : c.fillField locale passiveField v t = (v, t) := by
  unfold fillField
  rw [if_neg (by decide), if_pos rfl, h]

theorem fillField_of_ne (c : Champion) (locale : String) {field : String} (hs : field ≠ spellsField)
    (hp : field ≠ passiveField) : c.fillField locale field = Context.fill ⟨c, none, locale⟩ := by
  funext v t
  unfold fillField
  rw [if_neg hs, if_neg hp]

/-- Resolve the members of a record. -/
def fillFields (c : Champion) (locale : String) :
    List (String × Json) → Tally → List (String × Json) × Tally
  | [], t => ([], t)
  | (field, v) :: rest, t =>
    let (v, t) := c.fillField locale field v t
    let (rest, t) := c.fillFields locale rest t
    ((field, v) :: rest, t)

/-- Resolve a champion's record of texts in a locale. What is no object stays as it is. -/
def fillRecord (c : Champion) (locale : String) (record : Json) (t : Tally) : Json × Tally :=
  match record with
  | .object members =>
    let (members, t) := c.fillFields locale members t
    (.object members, t)
  | record => (record, t)

end Champion

end SpellText
