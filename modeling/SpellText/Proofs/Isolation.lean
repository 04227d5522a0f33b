import SpellText.Proofs.Documents
import SpellText.Proofs.Workers

/-!
# Champions apart from each other

What becomes of the texts of a champion is decided by the documents of that champion: its
entry among the sheets, its bundle, its base record and its record of texts. Other
champions make no difference, not even by an entry that is no sheet or a bundle that does
not load (`Inputs.resolve_isolated`).

This is so because every step keeps names apart. No name comes twice in a document, so
that the sheet and the champion of a name come from its own entry alone
(`Table.get?_ofList_filterMap`, `Catalog.get?_build`), and a record is resolved under its
name (`Catalog.get?_fillTexts`).
-/

namespace SpellText

/-! ## Tables of decoded entries -/

/-- Where names are distinct, a name leads to its own entry, if that decodes. -/
theorem Table.get?_ofList_filterMap {α β : Type} (g : String → α → Option β) (key : String) :
    ∀ {es : List (String × α)}, (es.map Prod.fst).Nodup →
      (Table.ofList (es.filterMap fun e => (g e.1 e.2).map (e.1, ·))).get? key
        = (Entries.get? key es).bind (g key)
  | [], _ => rfl
  | (name, a) :: es, h => by
    obtain ⟨hn, hd⟩ := List.nodup_cons.1 h
    have ih := get?_ofList_filterMap g key hd
    have hcons : (Table.ofList (((name, a) :: es).filterMap fun e => (g e.1 e.2).map (e.1, ·))).get?
        key = ((Entries.get? key es).bind (g key)).or (if key = name then g name a else none) := by
      rw [List.filterMap_cons]
      cases hg : g name a with
      | none => simpa using ih
      | some b => exact (get?_ofList_cons (name, b) _ key).trans (by rw [ih])
    rw [hcons, Entries.get?]
    by_cases hk : name = key
    · subst hk
      rw [Entries.get?_eq_none_iff.2 hn, if_pos rfl, if_pos rfl]
      rfl
    · rw [if_neg hk, if_neg (Ne.symm hk), Option.or_none]

namespace Catalog

/-- The champion of a name is made from the sheet and the base record of that name. -/
theorem get?_build (w : Workspace) (d : Directory) (sheets : Table ChampionSheet)
    (baseTexts : Texts) (name : String) :
    (build w d sheets baseTexts).get? name
      = (sheets.get? name).bind (champion? w d baseTexts name) :=
  Table.get?_ofList_filterMap (champion? w d baseTexts) name sheets.distinct

/-- A record is resolved under its name, whatever else was counted and stands around it. -/
theorem get?_fillTexts (c : Catalog) (locale name : String) : ∀ (texts : Texts) (t : Tally),
    Entries.get? name (c.fillTexts locale texts t).1
      = (Entries.get? name texts).map fun record => (c.fillRecord locale name record .empty).1
  | [], _ => rfl
  | (other, record) :: texts, t => by
    have ih := get?_fillTexts c locale name texts (c.fillRecord locale other record t).2
    have hr : (c.fillRecord locale other record t).1
        = (c.fillRecord locale other record .empty).1 := by
      rw [c.isAdditive_fillRecord locale other record t]
    show Entries.get? name ((other, (c.fillRecord locale other record t).1)
      :: (c.fillTexts locale texts (c.fillRecord locale other record t).2).1) = _
    rw [Entries.get?, Entries.get?, hr]
    split
    · next h => rw [h, Option.map_some]
    · exact ih

end Catalog

/-! ## Champions by their own documents -/

/-- What the texts of a locale are resolved with: the documents of a workspace. -/
structure Inputs where
  workspace : Workspace
  directory : Directory
  /-- The entries of the champions in the document of their sheets. -/
  entries : List (String × Json)
  baseTexts : Texts
  texts : Texts
  entries_read : directory.object? workspace.sheetsPath = some entries

namespace Inputs

/-- Build the catalog and resolve the texts with it. -/
def resolve (i : Inputs) (locale : String) (t : Tally) : Except FileError (Texts × Tally) := do
  let sheets ← i.workspace.loadSheets i.directory
  return (Catalog.build i.workspace i.directory sheets i.baseTexts).fillTexts locale i.texts t

/-- The sheet of a champion, if it has an entry and this is a sheet. -/
def sheet? (i : Inputs) (name : String) : Option ChampionSheet :=
  (Entries.get? name i.entries).bind Record.championSheet?

/-- The bundle of a champion with the given sheet, if it loads. -/
def bundle? (i : Inputs) (name : String) (sheet : ChampionSheet) : Option Bundle :=
  (i.workspace.loadBundle i.directory (Name.slug (Champion.idOf name sheet))).toOption

/-- The documents of a champion are the same: its entry, the content of the file of its
bundle, its base record and its record of texts. -/
structure AgreeOn (name : String) (i j : Inputs) : Prop where
  entry : Entries.get? name i.entries = Entries.get? name j.entries
  bundle : ∀ sheet, i.sheet? name = some sheet →
    let slug := Name.slug (Champion.idOf name sheet)
    i.directory.read? (i.workspace.bundlePath slug)
      = j.directory.read? (j.workspace.bundlePath slug)
  base : Entries.get? name i.baseTexts = Entries.get? name j.baseTexts
  text : Entries.get? name i.texts = Entries.get? name j.texts

/-- The champion of a name, made from its own documents. -/
def champion? (i : Inputs) (name : String) : Option Champion :=
  (i.sheet? name).bind fun sheet => (i.bundle? name sheet).map fun bundle =>
    .ofRecords name sheet bundle ((Entries.get? name i.baseTexts).getD .null)

/-- The sheets load from the entries that were read. -/
theorem loadSheets_eq (i : Inputs) :
    i.workspace.loadSheets i.directory = .ok (Workspace.sheetsOf i.entries) := by
  have h := i.workspace.toOption_loadSheets i.directory
  rw [i.entries_read] at h
  exact toOption_eq_some_iff.1 h

/-- The sheet of a name comes from the entry of that name. -/
theorem get?_sheetsOf (i : Inputs) (name : String) :
    (Workspace.sheetsOf i.entries).get? name = i.sheet? name :=
  Table.get?_ofList_filterMap (fun _ => Record.championSheet?) name
    (Directory.distinct_of_object i.entries_read)

/-- A catalog has the champions that their own documents make. -/
theorem get?_catalog (i : Inputs) (name : String) :
    (Catalog.build i.workspace i.directory (Workspace.sheetsOf i.entries) i.baseTexts).get? name
      = i.champion? name := by
  rw [Catalog.get?_build, get?_sheetsOf, champion?]
  refine Option.bind_congr fun sheet _ => ?_
  unfold Catalog.champion? bundle?
  cases i.workspace.loadBundle i.directory (Name.slug (Champion.idOf name sheet)) <;> rfl

/-- The record of a champion is resolved by the champion that its own documents make. -/
theorem exists_resolve (i : Inputs) (locale name : String) (t : Tally) :
    ∃ out, i.resolve locale t = .ok out ∧
      Entries.get? name out.1 = (Entries.get? name i.texts).map fun record =>
        match i.champion? name with
        | some c => (c.fillRecord locale record .empty).1
        | none => record := by
  refine ⟨_, by rw [resolve, loadSheets_eq]; rfl, ?_⟩
  rw [Catalog.get?_fillTexts]
  refine congrArg (Option.map · _) (funext fun record => ?_)
  rw [Catalog.fillRecord, get?_catalog]
  cases i.champion? name <;> rfl

/-- Where its documents are the same, the champion is the same. -/
theorem AgreeOn.champion? {name : String} {i j : Inputs} (h : AgreeOn name i j) :
    i.champion? name = j.champion? name := by
  have hs : i.sheet? name = j.sheet? name := by rw [sheet?, sheet?, h.entry]
  rw [Inputs.champion?, Inputs.champion?, ← hs, h.base]
  refine Option.bind_congr fun sheet hsheet => ?_
  rw [bundle?, bundle?, Workspace.toOption_loadBundle, Workspace.toOption_loadBundle,
    Directory.object?, Directory.object?, h.bundle sheet hsheet]

/-- Inputs that agree on the documents of a champion give the same record of that champion,
whatever else they hold. It is the record as this champion alone resolves it where the entry
of the champion is a sheet and its bundle loads, and else it stays as it is. -/
theorem resolve_isolated {name : String} {i j : Inputs} (h : AgreeOn name i j) (locale : String)
    (t u : Tally) :
    ∃ out out', i.resolve locale t = .ok out ∧ j.resolve locale u = .ok out' ∧
      Entries.get? name out.1 = Entries.get? name out'.1 ∧
      (∀ sheet bundle record, i.sheet? name = some sheet → i.bundle? name sheet = some bundle →
        Entries.get? name i.texts = some record →
          Entries.get? name out.1
            = some ((Champion.ofRecords name sheet bundle
                ((Entries.get? name i.baseTexts).getD .null)).fillRecord locale record .empty).1) ∧
      ((∀ sheet, i.sheet? name = some sheet → i.bundle? name sheet = none) →
        Entries.get? name out.1 = Entries.get? name i.texts) := by
  obtain ⟨out, hi, ho⟩ := i.exists_resolve locale name t
  obtain ⟨out', hj, ho'⟩ := j.exists_resolve locale name u
  refine ⟨out, out', hi, hj, by rw [ho, ho', h.text, h.champion?], ?_, fun hn => ?_⟩
  · intro sheet bundle record hs hb hr
    rw [ho, hr, Inputs.champion?, hs, Option.bind_some, hb]
    rfl
  · have hc : i.champion? name = none :=
      Option.bind_eq_none_iff.2 fun sheet hs => by rw [hn sheet hs, Option.map_none]
    rw [ho, hc]
    exact Option.map_id_apply

/-- A folder with the sheet of a champion, its bundle, and a broken entry behind the sheet. -/
def brokenFolder : Directory := .ofFiles
  [("champion_meta.json", "\x7b\"Sona\":\x7b\"id\":\"Sona\"\x7d,\"Zed\":null\x7d"),
    ("cdragon_cache/sona.bin.json", "\x7b\x7d")]

/-- A folder with the same sheet and bundle and a broken bundle besides. -/
def plainFolder : Directory := .ofFiles
  [("champion_meta.json", "\x7b\"Sona\":\x7b\"id\":\"Sona\"\x7d\x7d"),
    ("cdragon_cache/sona.bin.json", "\x7b\x7d"), ("cdragon_cache/zed.bin.json", "")]

theorem object_brokenFolder : brokenFolder.object? "champion_meta.json"
    = some [("Sona", .object [("id", .string "Sona")]), ("Zed", .null)] := by
  have hr : brokenFolder.read? "champion_meta.json"
      = some "\x7b\"Sona\":\x7b\"id\":\"Sona\"\x7d,\"Zed\":null\x7d" := by
    decide +kernel
  rw [Directory.object?, hr, Option.bind_some]
  cbv

theorem object_plainFolder : plainFolder.object? "champion_meta.json"
    = some [("Sona", .object [("id", .string "Sona")])] := by
  have hr : plainFolder.read? "champion_meta.json"
      = some "\x7b\"Sona\":\x7b\"id\":\"Sona\"\x7d\x7d" := by
    decide +kernel
  rw [Directory.object?, hr, Option.bind_some]
  cbv

/-- A text of the champion, and one of the broken one. -/
def broken : Inputs where
  workspace := ⟨"", .default⟩
  directory := brokenFolder
  entries := _
  baseTexts := []
  texts := [("Zed", .null), ("Sona", .object [("lore", .string "\x7b\x7b q \x7d\x7d")])]
  entries_read := object_brokenFolder

/-- The same text of the champion. -/
def plain : Inputs where
  workspace := ⟨"", .default⟩
  directory := plainFolder
  entries := _
  baseTexts := []
  texts := [("Sona", .object [("lore", .string "\x7b\x7b q \x7d\x7d")])]
  entries_read := object_plainFolder

theorem agreeOn_broken_plain : AgreeOn "Sona" broken plain where
  entry := rfl
  bundle sheet h := by
    obtain rfl : ⟨some "Sona", [], none, []⟩ = sheet := Option.some.inj h
    show brokenFolder.read? _ = plainFolder.read? _
    decide +kernel
  base := rfl
  text := rfl

theorem bundle?_broken : broken.bundle? "Sona" ⟨some "Sona", [], none, []⟩ = some ⟨[]⟩ := by
  have hr : brokenFolder.read? (broken.workspace.bundlePath "sona") = some "\x7b\x7d" := by
    decide +kernel
  have ho : (Json.parse? "\x7b\x7d").bind Json.object? = some [] := by cbv
  rw [bundle?, Workspace.toOption_loadBundle, Directory.object?]
  show (((brokenFolder.read? (broken.workspace.bundlePath "sona")).bind Json.parse?).bind
    Json.object?).map Bundle.mk = _
  rw [hr, Option.bind_some, ho]
  rfl

theorem resolve_isolated_broken :
    AgreeOn "Sona" broken plain ∧
      ∃ out out', broken.resolve "en" .empty = .ok out ∧ plain.resolve "en" .empty = .ok out' ∧
        Entries.get? "Sona" out.1 = Entries.get? "Sona" out'.1 ∧
        Entries.get? "Sona" out.1
          = some ((Champion.ofRecords "Sona" ⟨some "Sona", [], none, []⟩ ⟨[]⟩ .null).fillRecord "en"
            (.object [("lore", .string "\x7b\x7b q \x7d\x7d")]) .empty).1 := by
  obtain ⟨out, out', h, h', he, hown, -⟩ :=
    resolve_isolated agreeOn_broken_plain "en" .empty .empty
  exact ⟨agreeOn_broken_plain, out, out', h, h', he, hown _ _ _ rfl bundle?_broken rfl⟩

end Inputs

end SpellText
