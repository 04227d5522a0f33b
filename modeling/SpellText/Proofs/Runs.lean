import SpellText.Proofs.Documents
import SpellText.Proofs.JsonText.Compact
import SpellText.Proofs.Records
import SpellText.Proofs.Saving

/-!
# Runs read first and write afterwards

A run reads its settings, the sheets, the base texts and the texts of every locale. If one
of them does not load (`Job.FailsToLoad`) it ends with an error of reading, and the
directory is as it was. Bundles and the entries of the sheets are not among them: whatever
is in them, the reading succeeds (`Job.prepare_eq_ok_iff`), and what fails later is a file
that cannot be written.

The texts that a run resolves are those that the files held before it, also those of the
base locale, which are not read a second time (`Job.loadAllTexts_eq_ok_iff`).

Texts are resolved string by string (`Catalog.object_fillTexts`). So what a run writes for a
locale can be read again, and is read as the texts that were written
(`Job.parse?_textsFile`).

`Job.run_reads_first` puts this together with what is written where.
-/

namespace SpellText

/-! ## Resolving string by string -/

namespace Catalog

variable (c : Catalog) (locale : String)

/-- The new text of a string in the record of a champion, by its path. -/
def recordText (name : String) : Json.Path → String → String :=
  match c.get? name with
  | some champion => (champion.fillAt locale).text
  | none => fun _ s => s

/-- The new text of a string in the texts of a locale, by its path. -/
def textAt : Json.Path → String → String
  | .member name :: path => c.recordText locale name path
  | _ => id

/-- A record is resolved string by string. -/
theorem fillRecord_eq_mapTexts (name : String) (record : Json) (t : Tally) :
    (c.fillRecord locale name record t).1 = record.mapTexts (c.recordText locale name) := by
  unfold fillRecord recordText
  cases c.get? name with
  | some champion =>
    dsimp only
    rw [Champion.fillRecord_eq_filled]
    rfl
  | none => exact record.mapTexts_same.symm

/-- The texts of a locale are resolved string by string. -/
theorem fillTexts_eq_mapTexts : ∀ (texts : Texts) (t : Tally),
    (c.fillTexts locale texts t).1 = Json.mapTextsOfMembers (c.textAt locale) texts
  | [], _ => rfl
  | (name, record) :: texts, t =>
    congrArg₂ (fun v rest => (name, v) :: rest) (c.fillRecord_eq_mapTexts locale name record t)
      (fillTexts_eq_mapTexts texts (c.fillRecord locale name record t).2)

/-- The texts of a locale as one value are resolved string by string. -/
theorem object_fillTexts (texts : Texts) (t : Tally) :
    Json.object (c.fillTexts locale texts t).1 = (Json.object texts).mapTexts (c.textAt locale) :=
  congrArg Json.object (c.fillTexts_eq_mapTexts locale texts t)

end Catalog

namespace Job

open Workspace (settingsPath)

/-! ## Reading -/

/-- The texts of a locale in its file. -/
def textsIn (w : Workspace) (d : Directory) (locale : String) : Texts :=
  (d.object? (w.textsPath locale)).getD []

/-- Something that the job needs does not load. -/
inductive FailsToLoad (j : Job) (d : Directory) : Prop
  /-- There are settings, but they do not load. -/
  | settings : d.hasPath (settingsPath j.folder) = true →
      (∀ s, Workspace.loadSettings d (settingsPath j.folder) ≠ .ok s) → FailsToLoad j d
  /-- The file of the sheets holds no object. -/
  | sheets {w : Workspace} : j.loadWorkspace d = .ok w → d.object? w.sheetsPath = none →
      FailsToLoad j d
  /-- The file of the base texts holds no object. -/
  | baseTexts {w : Workspace} : j.loadWorkspace d = .ok w →
      d.object? (w.textsPath w.settings.baseLocale) = none → FailsToLoad j d
  /-- The file of the texts of a locale holds no object. -/
  | texts {w : Workspace} {locale : String} : j.loadWorkspace d = .ok w →
      locale ∈ w.settings.locales → d.object? (w.textsPath locale) = none → FailsToLoad j d

/-- Everything that the job needs loads. -/
structure Loads (j : Job) (d : Directory) (w : Workspace) (sheets : Table ChampionSheet)
    (baseTexts : Texts) : Prop where
  workspace : j.loadWorkspace d = .ok w
  sheets : w.loadSheets d = .ok sheets
  baseTexts : w.loadTexts d w.settings.baseLocale = .ok baseTexts
  texts : ∀ locale ∈ w.settings.locales, (d.object? (w.textsPath locale)).isSome

section

variable {w : Workspace} {d : Directory} {baseTexts : Texts}

/-- The texts of a locale; those of the base locale are at hand. -/
def loadOrReuse (w : Workspace) (d : Directory) (baseTexts : Texts) (locale : String) :
    Except FileError Texts :=
  if locale = w.settings.baseLocale then .ok baseTexts else w.loadTexts d locale

/-- The texts of a locale load if and only if its file holds an object. -/
theorem loadTexts_eq_ok_iff {locale : String} {texts : Texts} :
    w.loadTexts d locale = .ok texts ↔ d.object? (w.textsPath locale) = some texts := by
  rw [← toOption_eq_some_iff, Workspace.toOption_loadTexts]

/-- The texts of locales are loaded one after the other. -/
theorem loadAllTexts_cons (w : Workspace) (d : Directory) (baseTexts : Texts) (locale : String)
    (rest : List String) : loadAllTexts w d baseTexts (locale :: rest) = (do
      let texts ← loadOrReuse w d baseTexts locale
      let others ← loadAllTexts w d baseTexts rest
      return (locale, texts) :: others) := by
  rw [loadAllTexts, loadOrReuse]
  split <;> rfl

/-- The texts of all locales are those in their files, also those of the base locale. -/
theorem loadAllTexts_eq_ok_iff
    (hb : d.object? (w.textsPath w.settings.baseLocale) = some baseTexts) :
    ∀ {locales : List String} {texts : List (String × Texts)},
      loadAllTexts w d baseTexts locales = .ok texts ↔
        (∀ locale ∈ locales, (d.object? (w.textsPath locale)).isSome) ∧
          texts = locales.map fun locale => (locale, textsIn w d locale)
  | [], texts => by
    have h : loadAllTexts w d baseTexts [] = .ok [] := rfl
    rw [h, Except.ok.injEq, eq_comm]
    exact (and_iff_right fun _ hl => nomatch hl).symm
  | locale :: rest, texts => by
    have hone : ∀ {t : Texts}, loadOrReuse w d baseTexts locale = .ok t ↔
        d.object? (w.textsPath locale) = some t := by
      intro t
      unfold loadOrReuse
      split
      · next h => rw [h, hb, Except.ok.injEq, Option.some.injEq]
      · exact loadTexts_eq_ok_iff
    rw [loadAllTexts_cons]
    simp only [bind_eq_ok, hone, loadAllTexts_eq_ok_iff hb, pure, Except.pure, Except.ok.injEq,
      List.forall_mem_cons, List.map_cons]
    constructor
    · rintro ⟨t, ht, _, ⟨hrest, rfl⟩, rfl⟩
      exact ⟨⟨by rw [ht]; rfl, hrest⟩, by rw [textsIn, ht]; rfl⟩
    · rintro ⟨⟨hl, hrest⟩, rfl⟩
      obtain ⟨t, ht⟩ := Option.isSome_iff_exists.1 hl
      exact ⟨t, ht, _, ⟨hrest, rfl⟩, by rw [textsIn, ht]; rfl⟩

theorem loadBaseTexts_eq_ok_iff :
    loadBaseTexts w d = .ok baseTexts ↔ w.loadTexts d w.settings.baseLocale = .ok baseTexts := by
  unfold loadBaseTexts
  cases w.loadTexts d w.settings.baseLocale <;> simp

/-- The reading succeeds if and only if everything that the job needs loads. -/
theorem prepare_eq_ok_iff {j : Job} {p : Prepared} : j.prepare d = .ok p ↔
    ∃ w sheets baseTexts, j.Loads d w sheets baseTexts ∧
      p = ⟨w, Catalog.build w d sheets baseTexts,
        w.settings.locales.map fun locale => (locale, textsIn w d locale)⟩ := by
  unfold prepare
  simp only [bind_eq_ok, loadBaseTexts_eq_ok_iff, pure, Except.pure, Except.ok.injEq]
  constructor
  · rintro ⟨w, hw, sheets, hs, baseTexts, hb, texts, ht, rfl⟩
    obtain ⟨hall, rfl⟩ := (loadAllTexts_eq_ok_iff (loadTexts_eq_ok_iff.1 hb)).1 ht
    exact ⟨w, sheets, baseTexts, ⟨hw, hs, hb, hall⟩, rfl⟩
  · rintro ⟨w, sheets, baseTexts, ⟨hw, hs, hb, hall⟩, rfl⟩
    exact ⟨w, hw, sheets, hs, baseTexts, hb, _,
      (loadAllTexts_eq_ok_iff (loadTexts_eq_ok_iff.1 hb)).2 ⟨hall, rfl⟩, rfl⟩

end

/-! ## Errors of reading -/

section

variable {d : Directory} {e : FileError}

/-- A file that cannot be read gives an error of reading. -/
theorem isOfReading_readFile {path : String} (h : Workspace.readFile d path = .error e) :
    e.isOfReading = true := by
  unfold Workspace.readFile at h
  split at h
  · cases h
  · cases h
    rfl

/-- A file that holds no object gives the error that is told, or cannot be read. -/
theorem isOfReading_readObject {path : String} {bad : String → FileError}
    (hb : (bad path).isOfReading = true) (h : Workspace.readObject d path bad = .error e) :
    e.isOfReading = true := by
  rcases bind_eq_error.1 h with h | ⟨text, -, h⟩
  · exact isOfReading_readFile h
  · split at h
    · cases h
    · cases h
      exact hb

/-- Settings that do not load give an error of reading. -/
theorem isOfReading_loadSettings {path : String} (h : Workspace.loadSettings d path = .error e) :
    e.isOfReading = true := by
  rcases bind_eq_error.1 h with h | ⟨text, -, h⟩
  · exact isOfReading_readFile h
  · split at h
    · cases h
    · cases h
      rfl

/-- Texts that do not load give an error of reading, whichever locale they are of. -/
theorem isOfReading_loadAllTexts {w : Workspace} {baseTexts : Texts} : ∀ {locales : List String},
    loadAllTexts w d baseTexts locales = .error e → e.isOfReading = true
  | locale :: rest, h => by
    rw [loadAllTexts_cons] at h
    rcases bind_eq_error.1 h with h | ⟨_, -, h⟩
    · unfold loadOrReuse at h
      split at h
      · cases h
      · exact isOfReading_readObject rfl h
    · rcases bind_eq_error.1 h with h | ⟨_, -, h⟩
      · exact isOfReading_loadAllTexts h
      · cases h

/-- A workspace that does not load gives an error of reading, that of its settings. -/
theorem isOfReading_loadWorkspace {j : Job} (h : j.loadWorkspace d = .error e) :
    e.isOfReading = true := by
  unfold loadWorkspace Workspace.load Workspace.loadSettingsOrDefault at h
  rcases bind_eq_error.1 h with h | ⟨_, -, h⟩
  · rcases bind_eq_error.1 h with h | ⟨_, -, h⟩
    · split at h
      · exact isOfReading_loadSettings h
      · cases h
    · cases h
  · cases h

/-- Sheets that do not load give an error of reading. -/
theorem isOfReading_loadSheets {w : Workspace} (h : w.loadSheets d = .error e) :
    e.isOfReading = true := by
  rcases bind_eq_error.1 h with h | ⟨_, -, h⟩
  · exact isOfReading_readObject rfl h
  · cases h

/-- Base texts that do not load give an error of reading that names their locale. -/
theorem isOfReading_loadBaseTexts {w : Workspace} (h : loadBaseTexts w d = .error e) :
    e.isOfReading = true := by
  unfold loadBaseTexts at h
  split at h
  · cases h
  · cases h
    rfl

/-- When the reading fails, the error is one of reading. -/
theorem isOfReading_prepare {j : Job} (h : j.prepare d = .error e) : e.isOfReading = true := by
  unfold prepare at h
  rcases bind_eq_error.1 h with h | ⟨w, -, h⟩
  · exact isOfReading_loadWorkspace h
  rcases bind_eq_error.1 h with h | ⟨sheets, -, h⟩
  · exact isOfReading_loadSheets h
  rcases bind_eq_error.1 h with h | ⟨baseTexts, -, h⟩
  · exact isOfReading_loadBaseTexts h
  rcases bind_eq_error.1 h with h | ⟨texts, -, h⟩
  · exact isOfReading_loadAllTexts h
  · cases h

end

/-! ## What fails to load -/

section

variable {j : Job} {d : Directory}

/-- A job has a workspace unless there are settings that do not load. -/
theorem exists_loadWorkspace : (∃ w, j.loadWorkspace d = .ok w) ↔
    (d.hasPath (settingsPath j.folder) = true →
      ∃ s, Workspace.loadSettings d (settingsPath j.folder) = .ok s) := by
  unfold loadWorkspace Workspace.load Workspace.loadSettingsOrDefault
  simp only [bind_eq_ok, pure, Except.pure, Except.ok.injEq]
  constructor
  · rintro ⟨w, _, ⟨s, hs, rfl⟩, -⟩ hp
    rw [if_pos hp] at hs
    exact ⟨s, hs⟩
  · intro h
    split
    · next hp =>
      obtain ⟨s, hs⟩ := h hp
      exact ⟨_, _, ⟨s, hs, rfl⟩, rfl⟩
    · exact ⟨_, _, ⟨_, rfl, rfl⟩, rfl⟩

/-- Either everything loads or something fails to. -/
theorem failsToLoad_iff :
    j.FailsToLoad d ↔ ¬ ∃ w sheets baseTexts, j.Loads d w sheets baseTexts := by
  constructor
  · rintro hf ⟨w, sheets, baseTexts, hw, hs, hb, ht⟩
    -- The job has one workspace only, so that what fails is something that loads.
    have same : ∀ {w'}, j.loadWorkspace d = .ok w' → w' = w := fun h => by
      rw [hw] at h
      exact (Except.ok.inj h).symm
    cases hf with
    | settings hp hn =>
      obtain ⟨s, hs⟩ := exists_loadWorkspace.1 ⟨w, hw⟩ hp
      exact hn s hs
    | sheets h hn =>
      obtain rfl := same h
      have := toOption_eq_some_iff.2 hs
      rw [Workspace.toOption_loadSheets, hn] at this
      cases this
    | baseTexts h hn =>
      obtain rfl := same h
      rw [loadTexts_eq_ok_iff, hn] at hb
      cases hb
    | texts h hl hn =>
      obtain rfl := same h
      have := ht _ hl
      rw [hn] at this
      cases this
  · refine fun h => Classical.byContradiction fun hf => ?_
    obtain ⟨w, hw⟩ := exists_loadWorkspace.2 fun hp =>
      Classical.byContradiction fun hn => hf (.settings hp (not_exists.1 hn))
    obtain ⟨entries, hs⟩ := Option.ne_none_iff_exists'.1 fun hn => hf (.sheets hw hn)
    obtain ⟨baseTexts, hb⟩ := Option.ne_none_iff_exists'.1 fun hn => hf (.baseTexts hw hn)
    refine h ⟨w, Workspace.sheetsOf entries, baseTexts, hw, ?_, loadTexts_eq_ok_iff.2 hb, ?_⟩
    · rw [← toOption_eq_some_iff, Workspace.toOption_loadSheets, hs]
      rfl
    · intro locale hl
      exact Option.ne_none_iff_isSome.1 fun hn => hf (.texts hw hl hn)

/-- A job either has something that fails to load or everything that it needs. -/
theorem failsToLoad_or_exists_loads (j : Job) (d : Directory) :
    j.FailsToLoad d ∨ ∃ w sheets baseTexts, j.Loads d w sheets baseTexts := by
  rw [failsToLoad_iff]
  exact (Classical.em _).symm

end

/-! ## The outcome of a run -/

/-- The texts of a locale, resolved. -/
def resolveLocale (c : Catalog) (w : Workspace) (d : Directory) (locale : String) : Resolved :=
  let filled := c.fillTexts locale (textsIn w d locale) .empty
  ⟨locale, filled.1, filled.2⟩

theorem texts_resolveLocale (c : Catalog) (w : Workspace) (d : Directory) (locale : String) :
    (resolveLocale c w d locale).texts = (c.fillTexts locale (textsIn w d locale) .empty).1 := by
  rw [resolveLocale]

/-- The resolved texts of all locales. -/
def resolveLocales (c : Catalog) (w : Workspace) (d : Directory) : List Resolved :=
  w.settings.locales.map (resolveLocale c w d)

/-- Every locale of the workspace is resolved, in the order of the list. -/
theorem map_locale_resolveLocales (c : Catalog) (w : Workspace) (d : Directory) :
    (resolveLocales c w d).map (·.locale) = w.settings.locales := by
  rw [resolveLocales, List.map_map]
  exact List.map_id _

section

variable {j : Job} {d : Directory} {w : Workspace} {sheets : Table ChampionSheet}
  {baseTexts : Texts}

/-- When everything loads, all that can fail is the writing. -/
theorem run_of_loads (h : j.Loads d w sheets baseTexts) :
    let rs := resolveLocales (Catalog.build w d sheets baseTexts) w d
    j.run d = ((j.publish w rs d).1.map fun _ => totalOf rs, (j.publish w rs d).2) := by
  have hp := prepare_eq_ok_iff.2 ⟨w, sheets, baseTexts, h, rfl⟩
  unfold run
  rw [hp]
  dsimp only
  have hrs : resolveAll ⟨w, Catalog.build w d sheets baseTexts,
      w.settings.locales.map fun locale => (locale, textsIn w d locale)⟩ =
        resolveLocales (Catalog.build w d sheets baseTexts) w d := by
    rw [resolveAll, List.map_map]
    rfl
  rw [hrs]
  rcases j.publish w (resolveLocales (Catalog.build w d sheets baseTexts) w d) d with ⟨_ | _, d'⟩
  · rfl
  · rfl

/-- A run in which something does not load ends there. -/
theorem run_of_failsToLoad (h : j.FailsToLoad d) :
    ∃ e, e.isOfReading = true ∧ j.run d = (.error e, d) := by
  cases hp : j.prepare d with
  | error e =>
    refine ⟨e, isOfReading_prepare hp, ?_⟩
    unfold run
    rw [hp]
  | ok p =>
    obtain ⟨w, sheets, baseTexts, hl, -⟩ := prepare_eq_ok_iff.1 hp
    exact absurd ⟨w, sheets, baseTexts, hl⟩ (failsToLoad_iff.1 h)

/-- A run that succeeds is one in which everything loads and is written. -/
theorem run_eq_ok {t : Tally} {d' : Directory} (h : j.run d = (.ok t, d')) :
    ∃ w sheets baseTexts, j.Loads d w sheets baseTexts ∧
      let rs := resolveLocales (Catalog.build w d sheets baseTexts) w d
      j.publish w rs d = (.ok (), d') ∧ t = totalOf rs := by
  obtain hf | ⟨w, sheets, baseTexts, hl⟩ := j.failsToLoad_or_exists_loads d
  · obtain ⟨e, -, he⟩ := run_of_failsToLoad hf
    rw [he] at h
    cases h
  · refine ⟨w, sheets, baseTexts, hl, ?_⟩
    rw [run_of_loads hl] at h
    dsimp only at h ⊢
    rcases hp : j.publish w (resolveLocales (Catalog.build w d sheets baseTexts) w d) d
      with ⟨_ | _, d''⟩
    · rw [hp] at h
      cases h
    · rw [hp] at h
      cases h
      exact ⟨rfl, rfl⟩

/-- The keys of the files that a run may write. -/
def IsWritten (j : Job) (w : Workspace) (d : Directory) (key : String) : Prop :=
  j.dryRun = false ∧ IsOutput w d w.settings.locales key ∨ j.IsReport d key

/-- A run only adds to the directory and changes no files but those it may write. -/
theorem grows_run (h : j.Loads d w sheets baseTexts) :
    Directory.Grows (j.IsWritten w d) d (j.run d).2 := by
  rw [run_of_loads h]
  have := grows_publish w (d := d) j (resolveLocales (Catalog.build w d sheets baseTexts) w d)
  rwa [map_locale_resolveLocales] at this

/-- After a run that succeeds, the file of a locale holds its resolved texts. -/
theorem read?_run (hd : j.dryRun = false) (h : j.Loads d w sheets baseTexts)
    (hok : (j.run d).1.toBool = true) (ho : HasOwnOutputs w d w.settings.locales)
    {locale : String} (hl : locale ∈ w.settings.locales)
    (hr : ¬ j.IsReport d (d.fileKey (w.outputPath locale))) :
    (j.run d).2.read? (w.outputPath locale) = some (Workspace.textsFile
      (resolveLocale (Catalog.build w d sheets baseTexts) w d locale).texts) := by
  rw [run_of_loads h] at hok ⊢
  rw [← map_locale_resolveLocales (Catalog.build w d sheets baseTexts) w d] at ho hl
  refine read?_publish w hd (fun locale => (resolveLocale _ w d locale).texts) ?_ ho ?_ hl hr
  · intro r hr
    obtain ⟨_, -, rfl⟩ := List.mem_map.1 hr
    rfl
  · obtain ⟨_, ht⟩ := exists_eq_ok_of_toBool hok
    obtain ⟨_, hp, -⟩ := map_eq_ok.1 ht
    exact hp

end

/-! ## What is written -/

/-- What is written for the texts of a locale that were in a file is read as these texts,
resolved, with their numbers reread. -/
theorem parse?_textsFile (c : Catalog) (w : Workspace) (d : Directory) (locale : String)
    (h : (d.object? (w.textsPath locale)).isSome) :
    let texts := (c.fillTexts locale (textsIn w d locale) .empty).1
    Json.parse? (Workspace.textsFile texts) = (Json.object texts).reread? ∧
      ((∀ x ∈ (Json.object (textsIn w d locale)).reals, Json.IsStable x) →
        Json.parse? (Workspace.textsFile texts) = some (.object texts)) := by
  intro texts
  have hmap : Json.object texts
      = (Json.object (textsIn w d locale)).mapTexts (c.textAt locale) :=
    c.object_fillTexts locale _ _
  have hreadable : (Json.object texts).IsReadable Json.Reader.nestingLimit := by
    obtain ⟨members, hm⟩ := Option.isSome_iff_exists.1 h
    rw [hmap, Json.isReadable_mapTexts_iff, textsIn, hm]
    exact Directory.isReadable_of_object hm
  refine ⟨Json.parse?_compact hreadable, fun hx => Json.parse?_compact_of_stable hreadable ?_⟩
  rwa [hmap, Json.reals_mapTexts]

/-! ## A run in a small folder -/

/-- A data folder with a champion, its bundle and its texts in two locales, with markers and a
number. -/
def plainFolder : Directory := .ofFiles [
  ("champion_meta.json",
    "\x7b\"Ahri\":\x7b\"id\":\"Ahri\",\"spells\":[\x7b\"id\":\"AhriOrb\"\x7d]\x7d\x7d"),
  ("champion_text_en.json",
    "\x7b\"Ahri\":\x7b\"spells\":[\"Deals \x7b\x7b damage \x7d\x7d\"]\x7d\x7d"),
  ("champion_text_ru.json", "\x7b\"Ahri\":\x7b\"spells\":" ++
    "[\"Урон \x7b\x7b damage \x7d\x7d, \x7b\x7b speed \x7d\x7d\"],\"patch\":14.5\x7d\x7d"),
  ("cdragon_cache/ahri.bin.json", "\x7b\"Spells/AhriOrb\":\x7b\"mSpell\":\x7b\"DataValues\":" ++
    "[\x7b\"mName\":\"Damage\",\"mValues\":[40,65]\x7d]\x7d\x7d\x7d")]

/-- The Russian texts of the folder with the known number in place of its marker. -/
def plainOutcome : String :=
  "\x7b\"Ahri\":\x7b\"spells\":[\"Урон 40/65, \x7b\x7b speed \x7d\x7d\"],\"patch\":14.5\x7d\x7d"

/-- Resolve the texts of locales in place and report. -/
def plainJob (locales : List String) : Job := ⟨"", some "report.json", false, some locales⟩

/-- The workspace of the job. -/
def plainWorkspace (locales : List String) : Workspace :=
  ⟨"", { Settings.default with locales }⟩

theorem load_plain : Workspace.load plainFolder "" = .ok ⟨"", .default⟩ := by
  have h : plainFolder.hasPath (settingsPath "") = false := by decide +kernel
  rw [Workspace.load, Workspace.loadSettingsOrDefault, h]
  rfl

theorem loadWorkspace_plain (locales : List String) :
    (plainJob locales).loadWorkspace plainFolder = .ok (plainWorkspace locales) :=
  bind_eq_ok.2 ⟨_, load_plain, rfl⟩

/-- The job runs in either order, and resolves the markers whose number is known. -/
theorem run_plain {locales : List String} (h : locales ∈ [["en", "ru"], ["ru", "en"]]) :
    ∃ t d', (plainJob locales).run plainFolder = (.ok t, d') ∧ t.replaced = 2 ∧ t.skipped = 1 ∧
      d'.read? "champion_text_ru.json" = some plainOutcome := by
  have hruns : ∀ locales ∈ [["en", "ru"], ["ru", "en"]],
      let r := (plainJob locales).run plainFolder
      (r.1.toOption.map fun t => (t.replaced, t.skipped)) = some (2, 1) ∧
        r.2.read? "champion_text_ru.json" = some plainOutcome := by
    decide +kernel
  obtain ⟨hcounts, hread⟩ := hruns locales h
  obtain ⟨t, ht, hnumbers⟩ := Option.map_eq_some_iff.1 hcounts
  obtain ⟨hreplaced, hskipped⟩ := Prod.mk.inj hnumbers
  exact ⟨t, _, Prod.ext (toOption_eq_some_iff.1 ht) rfl, hreplaced, hskipped, hread⟩

theorem hasOwnOutputs_plain (locales : List String) :
    HasOwnOutputs (plainWorkspace locales) plainFolder ["en", "ru"] := by
  show HasOwnOutputs (plainWorkspace []) plainFolder ["en", "ru"]
  unfold HasOwnOutputs
  decide +kernel

/-! ## Reading and writing -/

/-- A run reads everything before it writes. If something does not load, it ends with an
error of reading and the directory is as it was; otherwise, whatever the bundles and the
entries of the sheets hold, it does not end with such an error. A dry run changes no file
but the report. A run that succeeds changes the files of its locales and the report only,
and if different locales have different files, each holds the texts that the locale had
before the run, resolved, unless it is the file of the report. What it holds is read as these
texts with their numbers reread, and as these texts where their doubles come back. -/
theorem run_reads_first (j : Job) (d : Directory) :
    (j.FailsToLoad d → ∃ e, e.isOfReading = true ∧ j.run d = (.error e, d)) ∧
    (¬ j.FailsToLoad d → ∀ e, (j.run d).1 = .error e → e.isOfReading = false) ∧
    (j.dryRun = true → ∀ key, (j.run d).2.files.get? key ≠ d.files.get? key →
      j.IsReport d key) ∧
    (j.dryRun = false → ∀ t d', j.run d = (.ok t, d') →
      ∃ w sheets baseTexts, j.Loads d w sheets baseTexts ∧
        (∀ key, d'.files.get? key ≠ d.files.get? key →
          IsOutput w d w.settings.locales key ∨ j.IsReport d key) ∧
        (HasOwnOutputs w d w.settings.locales → ∀ locale ∈ w.settings.locales,
          ¬ j.IsReport d (d.fileKey (w.outputPath locale)) →
            let texts := ((Catalog.build w d sheets baseTexts).fillTexts locale
              (textsIn w d locale) .empty).1
            d'.read? (w.outputPath locale) = some (Workspace.textsFile texts) ∧
            Json.parse? (Workspace.textsFile texts) = (Json.object texts).reread? ∧
            ((∀ x ∈ (Json.object (textsIn w d locale)).reals, Json.IsStable x) →
              d'.object? (w.outputPath locale) = some texts))) := by
  refine ⟨run_of_failsToLoad, fun hf e he => ?_, fun hd key hk => ?_, fun hd t d' h => ?_⟩
  · obtain ⟨w, sheets, baseTexts, hl⟩ := (j.failsToLoad_or_exists_loads d).resolve_left hf
    rw [run_of_loads hl] at he
    exact isOfReading_publish w (map_eq_error.1 he)
  · obtain hf | ⟨w, sheets, baseTexts, hl⟩ := j.failsToLoad_or_exists_loads d
    · obtain ⟨e, -, he⟩ := run_of_failsToLoad hf
      rw [he] at hk
      exact absurd rfl hk
    · rcases (grows_run hl).touched_of_ne hk with ⟨hd', -⟩ | hr
      · rw [hd] at hd'
        cases hd'
      · exact hr
  · obtain ⟨w, sheets, baseTexts, hl, -⟩ := run_eq_ok h
    have hg := grows_run hl
    rw [h] at hg
    refine ⟨w, sheets, baseTexts, hl, fun key hk => ?_, fun ho locale hlocale hr => ?_⟩
    · exact (hg.touched_of_ne hk).imp_left And.right
    · have hread := read?_run hd hl (by rw [h]; rfl) ho hlocale hr
      rw [h, texts_resolveLocale] at hread
      obtain ⟨hreread, hsame⟩ := parse?_textsFile (Catalog.build w d sheets baseTexts) w d locale
        (hl.texts locale hlocale)
      refine ⟨hread, hreread, fun hx => ?_⟩
      rw [Directory.object?, hread, Option.bind_some, hsame hx, Option.bind_some, Json.object?]

theorem run_reads_first_plain :
    (∃ e, e.isOfReading = true ∧
      (plainJob ["en", "fr"]).run plainFolder = (.error e, plainFolder)) ∧
    ∃ t d' sheets baseTexts, (plainJob ["en", "ru"]).run plainFolder = (.ok t, d') ∧
      (plainJob ["en", "ru"]).Loads plainFolder (plainWorkspace ["en", "ru"]) sheets baseTexts ∧
      d'.read? "champion_text_ru.json" = some plainOutcome ∧
      d'.object? "champion_text_ru.json" = some
        ((Catalog.build (plainWorkspace ["en", "ru"]) plainFolder sheets baseTexts).fillTexts "ru"
          (textsIn (plainWorkspace ["en", "ru"]) plainFolder "ru") .empty).1 := by
  have hreport : ¬ (plainJob ["en", "ru"]).IsReport plainFolder
      (plainFolder.fileKey ((plainWorkspace ["en", "ru"]).outputPath "ru")) := by
    rintro ⟨path, ⟨⟩, hkey⟩
    revert hkey
    decide +kernel
  have hreals : (Json.object <| textsIn (plainWorkspace ["en", "ru"]) plainFolder "ru").reals
      = [14.5] := by
    decide +kernel
  have hstable : Json.IsStable 14.5 := by
    have htext : (Json.Number.real 14.5).text = "14.5" := rfl
    rw [Json.IsStable, htext]
    rfl
  obtain ⟨hfails, -⟩ := run_reads_first (plainJob ["en", "fr"]) plainFolder
  obtain ⟨-, -, -, hwrites⟩ := run_reads_first (plainJob ["en", "ru"]) plainFolder
  obtain ⟨t, d', h, -, -, hread⟩ := run_plain (List.mem_cons_self : ["en", "ru"] ∈ _)
  obtain ⟨w, sheets, baseTexts, hl, -, hfile⟩ := hwrites rfl t d' h
  obtain rfl : plainWorkspace ["en", "ru"] = w :=
    Except.ok.inj ((loadWorkspace_plain _).symm.trans hl.workspace)
  obtain ⟨-, -, hobject⟩ := hfile (hasOwnOutputs_plain _) "ru" (by decide) hreport
  refine ⟨hfails ?_, t, d', sheets, baseTexts, h, hl, hread, hobject fun x hx => ?_⟩
  · exact .texts (loadWorkspace_plain _) (by decide : "fr" ∈ ["en", "fr"])
      (Option.isNone_iff_eq_none.1 (by decide +kernel))
  · rw [hreals, List.mem_singleton] at hx
    rw [hx]
    exact hstable

end Job

end SpellText
