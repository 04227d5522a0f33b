import SpellText.Log.Event
import SpellText.Run

/-!
# The account of a run

The events of a run in the order of its stages: what it finds while it reads,
what becomes of every placeholder, and what it writes. A run that is stopped has
the events before the stop.
-/

namespace SpellText

open Log (Event)

/-! ## Texts -/

namespace Context

/-- The events of a placeholder. -/
def placeholderEvents (x : Context) (placeholder : List Char) : List Event :=
  if isResourceName placeholder then []
  else
    let name := String.ofList placeholder
    match (Request.ofChars placeholder).answer? x.champion x.ability with
    | none => [.noAbility x.champion.name name]
    | some (.ok _) => []
    | some (.error f) =>
      match f.severity with
      | .skip => [.skipped x.champion.name x.abilityName name]
      | .failure => [.failed (x.diagnostic name f)]

/-- The events of a piece of a text. -/
def pieceEvents (x : Context) : Piece → List Event
  | .literal _ => []
  | .marker inner => x.placeholderEvents (Text.trim inner)

/-- The events of all texts in a tree. -/
def events (x : Context) (v : Json) : List Event :=
  v.strings.flatMap fun s => (Piece.ofChars s.toList).flatMap x.pieceEvents

end Context

namespace Champion

/-- The events of the texts of the spells from a slot on. -/
def spellsEvents (c : Champion) (locale : String) : Nat → List Json → List Event
  | _, [] => []
  | slot, v :: rest =>
    Context.events ⟨c, c.abilityOfSlot? slot, locale⟩ v ++ c.spellsEvents locale (slot + 1) rest

/-- The events of a member of a record. -/
def fieldEvents (c : Champion) (locale field : String) (v : Json) : List Event :=
  if field = spellsField then c.spellsEvents locale 0 (v.array?.getD [])
  else if field = passiveField then
    match c.ability? passiveKey with
    | some passive => Context.events ⟨c, some passive, locale⟩ v
    | none => []
  else Context.events ⟨c, none, locale⟩ v

/-- The events of a champion's record of texts. -/
def recordEvents (c : Champion) (locale : String) (record : Json) : List Event :=
  (record.object?.getD []).flatMap fun m => c.fieldEvents locale m.1 m.2

end Champion

/-- The events of the texts of a locale. -/
def Catalog.textsEvents (c : Catalog) (locale : String) (texts : Texts) : List Event :=
  (texts.flatMap fun m =>
    match c.get? m.1 with
    | some champion => champion.recordEvents locale m.2
    | none => [.unknownChampion m.1 locale]) ++ [.resolved locale]

/-! ## Files -/

/-- The events of looking a script up in a bundle, where `missing` tells that
there are no data. -/
def Bundle.scriptEvents (b : Bundle) (missing : String → Event) (script : String) : List Event :=
  match b.findSpell? script with
  | some _ => []
  | none =>
    if (b.entry? script).isSome then [.malformedSpell script, missing script] else [missing script]

namespace Workspace

/-- The events of reading the settings of a data folder. -/
def settingsEvents (d : Directory) (folder : String) : List Event :=
  let path := settingsPath folder
  if d.hasPath path then [] else [.defaultSettings path]

/-- The events of reading the sheets. -/
def sheetsEvents (w : Workspace) (d : Directory) : List Event :=
  match readObject d w.sheetsPath .badSheets with
  | .ok members =>
    (members.filter fun m => (Record.championSheet? m.2).isNone).map fun m => .malformedSheet m.1
  | .error _ => []

/-- The events of making a champion from its sheet and its bundle. -/
def championEvents (w : Workspace) (d : Directory) (name : String) (sheet : ChampionSheet) :
    List Event :=
  let id := Champion.idOf name sheet
  match w.loadBundle d (Name.slug id) with
  | .error _ => [.noBundle name]
  | .ok b =>
    ((sheet.spells.filterMap (·.id)).filter (!·.isEmpty)).flatMap
        (b.scriptEvents (.noSpell name))
      ++ b.scriptEvents (.noPassive name) (Champion.passiveScript id sheet) ++ [.ready name]

end Workspace

namespace Job

/-- The events of writing the texts of the locales, up to the first failure. -/
def saveEvents (w : Workspace) : List Resolved → Directory → List Event
  | [], _ => []
  | r :: rest, d =>
    match w.saveTexts r.locale r.texts d with
    | (.ok (), d) => .saved (w.outputPath r.locale) :: saveEvents w rest d
    | (.error _, _) => []

/-- The events of writing the results. -/
def publishEvents (j : Job) (w : Workspace) (rs : List Resolved) (d : Directory) : List Event :=
  let texts := if j.dryRun then [.dryRun] else saveEvents w rs d
  match j.publish w rs d with
  | (.ok (), _) => texts ++ (j.reportPath.map Event.reported).toList ++ [.finished]
  | (.error _, _) => texts

/-- The events of the texts of all locales, once the catalog is known. -/
def textsEvents (j : Job) (w : Workspace) (d : Directory) (baseTexts : Texts) (c : Catalog) :
    List Event :=
  match loadAllTexts w d baseTexts w.settings.locales with
  | .error _ => []
  | .ok texts =>
    (texts.flatMap fun m => c.textsEvents m.1 m.2)
      ++ j.publishEvents w (resolveAll ⟨w, c, texts⟩) d

/-- The events of a run. -/
def events (j : Job) (d : Directory) : List Event :=
  Workspace.settingsEvents d j.folder ++
    match j.loadWorkspace d with
    | .error _ => []
    | .ok w =>
      .started ::
        match w.loadSheets d with
        | .error _ => []
        | .ok sheets =>
          w.sheetsEvents d ++
            match loadBaseTexts w d with
            | .error _ => []
            | .ok baseTexts =>
              (sheets.entries.flatMap fun e => w.championEvents d e.1 e.2) ++ .allReady ::
                j.textsEvents w d baseTexts (.build w d sheets baseTexts)

end Job

end SpellText
