import SpellText.Proofs.JsonText.Readable
import SpellText.Workspace

/-!
# Documents in files

A document is a JSON object in a file (`Directory.object?`). Whatever loads one succeeds if
and only if there is one (`Workspace.toOption_readObject`), whatever its members are: those
of the sheets that are no sheets are left out (`Workspace.toOption_loadSheets`).

A document is nested no deeper than the reader allows and no name comes twice in it
(`Directory.isReadable_of_object`, `Directory.distinct_of_object`).
-/

namespace SpellText

/-! ## Objects in files -/

/-- The members of the JSON object in a file, if there is one. -/
def Directory.object? (d : Directory) (path : String) : Option (List (String × Json)) :=
  ((d.read? path).bind Json.parse?).bind Json.object?

/-- The object in a file is one that was read. -/
theorem Directory.isReadable_of_object {d : Directory} {path : String}
    {members : List (String × Json)} (h : d.object? path = some members) :
    (Json.object members).IsReadable Json.Reader.nestingLimit := by
  rw [object?, Option.bind_assoc] at h
  obtain ⟨text, -, hm⟩ := Option.bind_eq_some_iff.1 h
  obtain ⟨v, hv, hobject⟩ := Option.bind_eq_some_iff.1 hm
  cases v with
  | object _ =>
    cases hobject
    exact Json.isReadable_of_parse hv
  | _ => cases hobject

/-- No name comes twice in an object in a file. -/
theorem Directory.distinct_of_object {d : Directory} {path : String}
    {members : List (String × Json)} (h : d.object? path = some members) :
    Json.HasDistinctNames members :=
  (isReadable_of_object h).2.1

namespace Workspace

/-- An object is read if and only if there is one in the file. -/
theorem toOption_readObject (d : Directory) (path : String) (bad : String → FileError) :
    (readObject d path bad).toOption = d.object? path := by
  unfold readObject readFile Directory.object?
  rw [Option.bind_assoc]
  cases d.read? path with
  | none => rfl
  | some text =>
    simp only [bind, Except.bind, Option.bind_some]
    cases (Json.parse? text).bind Json.object? <;> rfl

/-- The texts of a locale load as the object in their file. -/
theorem toOption_loadTexts (w : Workspace) (d : Directory) (locale : String) :
    (w.loadTexts d locale).toOption = d.object? (w.textsPath locale) :=
  toOption_readObject d _ _

/-- A bundle loads as the object in its file, whatever its entries are. -/
theorem toOption_loadBundle (w : Workspace) (d : Directory) (slug : String) :
    (w.loadBundle d slug).toOption = (d.object? (w.bundlePath slug)).map Bundle.mk := by
  rw [← toOption_readObject d _ .badBundle, loadBundle]
  cases readObject d (w.bundlePath slug) .badBundle <;> rfl

/-- The sheets among the entries of a document. -/
def sheetsOf (entries : List (String × Json)) : Table ChampionSheet :=
  .ofList (entries.filterMap fun m => (Record.championSheet? m.2).map (m.1, ·))

/-- An entry that is no sheet is left out and does no harm. -/
theorem toOption_loadSheets (w : Workspace) (d : Directory) :
    (w.loadSheets d).toOption = (d.object? w.sheetsPath).map sheetsOf := by
  rw [← toOption_readObject d _ .badSheets, loadSheets]
  cases readObject d w.sheetsPath .badSheets <;> rfl

end Workspace

end SpellText
