import SpellText.Proofs.Runs
import SpellText.Proofs.Workers

/-!
# Locales do not influence each other

What a job reads besides the texts of its locales does not depend on its locales
(`Job.Shares`), and the texts of each are resolved by themselves. So a locale is
resolved and counted in the same way wherever it stands in the list, also if it is the base
locale or if its texts are overwritten by the run: the texts are read before.

In another order a run leaves the same texts and counts the same, and the reports of each
locale stay together; a run over two lists counts what dry runs over each of them count
(`Job.run_permuted`).
-/

namespace SpellText

/-- The workspace with other locales. -/
def Workspace.onLocales (w : Workspace) (locales : List String) : Workspace :=
  { w with settings := { w.settings with locales } }

theorem Workspace.bundlePath_onLocales (w : Workspace) (locales : List String) (slug : String) :
    (w.onLocales locales).bundlePath slug = w.bundlePath slug := rfl

/-- A champion does not depend on the locales of the workspace. -/
theorem Catalog.champion?_onLocales (w : Workspace) (locales : List String) (d : Directory)
    (baseTexts : Texts) (name : String) (sheet : ChampionSheet) :
    champion? (w.onLocales locales) d baseTexts name sheet
      = champion? w d baseTexts name sheet := by
  unfold champion? Workspace.loadBundle
  rw [Workspace.bundlePath_onLocales]

/-- So the catalog does not depend on them either. -/
theorem Catalog.build_onLocales (w : Workspace) (locales : List String) (d : Directory)
    (sheets : Table ChampionSheet) (baseTexts : Texts) :
    build (w.onLocales locales) d sheets baseTexts = build w d sheets baseTexts := by
  unfold build
  simp only [champion?_onLocales]

theorem Tally.errors_sum (ts : List Tally) : (sum ts).errors = ts.flatMap (·.errors) := by
  induction ts with
  | nil => rfl
  | cons t ts ih => rw [sum_cons, errors_append, ih, List.flatMap_cons]

namespace Job

/-- The job for other locales. -/
def onLocales (j : Job) (locales : List String) : Job := { j with locales := some locales }

/-- The job for other locales that only counts. -/
def dryOnLocales (j : Job) (locales : List String) : Job :=
  { j with dryRun := true, reportPath := none }.onLocales locales

/-- What the job reads whatever its locales are. -/
structure Shares (j : Job) (d : Directory) (w : Workspace) (sheets : Table ChampionSheet)
    (baseTexts : Texts) : Prop where
  workspace : Workspace.load d j.folder = .ok w
  sheets : w.loadSheets d = .ok sheets
  baseTexts : w.loadTexts d w.settings.baseLocale = .ok baseTexts

theorem resolveLocale_onLocales (c : Catalog) (w : Workspace) (locales : List String)
    (d : Directory) : resolveLocale c (w.onLocales locales) d = resolveLocale c w d := rfl

/-- What a locale adds to the tally of a run. -/
def localeTally (w : Workspace) (d : Directory) (sheets : Table ChampionSheet) (baseTexts : Texts)
    (locale : String) : Tally :=
  (resolveLocale (Catalog.build w d sheets baseTexts) w d locale).tally

/-- The tally of a run is the sum of those of its locales. -/
theorem totalOf_eq (rs : List Resolved) : totalOf rs = Tally.sum (rs.map (·.tally)) := by
  have h : ∀ t, rs.foldl (fun t r => t ++ r.tally) t = t ++ Tally.sum (rs.map (·.tally)) := by
    induction rs with
    | nil => exact fun t => (Tally.append_empty t).symm
    | cons r rs ih =>
      intro t
      rw [List.foldl_cons, ih, Tally.append_assoc]
      rfl
  exact (h .empty).trans (Tally.empty_append _)

section

variable {j : Job} {d : Directory} {w : Workspace} {sheets : Table ChampionSheet}
  {baseTexts : Texts} {locales : List String}

/-- A job for other locales loads what all such jobs share and the texts of these locales. -/
theorem loads_onLocales_iff {w' : Workspace} : (j.onLocales locales).Loads d w' sheets baseTexts ↔
    ∃ w, w' = w.onLocales locales ∧ j.Shares d w sheets baseTexts ∧
      ∀ locale ∈ locales, (d.object? (w.textsPath locale)).isSome := by
  constructor
  · rintro ⟨hw, hs, hb, ht⟩
    obtain ⟨w, hload, he⟩ := bind_eq_ok.1 hw
    cases he
    exact ⟨w, rfl, ⟨hload, hs, hb⟩, ht⟩
  · rintro ⟨w, rfl, ⟨hw, hs, hb⟩, ht⟩
    exact ⟨bind_eq_ok.2 ⟨w, hw, rfl⟩, hs, hb, ht⟩

/-- Two jobs that differ in their locales read the same besides. -/
theorem Shares.unique {w' : Workspace} {sheets' : Table ChampionSheet} {baseTexts' : Texts}
    (h : j.Shares d w sheets baseTexts) (h' : j.Shares d w' sheets' baseTexts') :
    w' = w ∧ sheets' = sheets ∧ baseTexts' = baseTexts := by
  obtain rfl : w' = w := Except.ok.inj (h'.workspace.symm.trans h.workspace)
  exact ⟨rfl, Except.ok.inj (h'.sheets.symm.trans h.sheets),
    Except.ok.inj (h'.baseTexts.symm.trans h.baseTexts)⟩

/-- The locales are resolved each by itself. -/
theorem run_onLocales_eq_ok {t : Tally} {d' : Directory}
    (h : (j.onLocales locales).run d = (.ok t, d')) :
    ∃ w sheets baseTexts, j.Shares d w sheets baseTexts ∧
      (j.onLocales locales).Loads d (w.onLocales locales) sheets baseTexts ∧
      t = Tally.sum (locales.map (localeTally w d sheets baseTexts)) := by
  obtain ⟨_, sheets, baseTexts, hl, -, ht⟩ := run_eq_ok h
  obtain ⟨w, rfl, hs, -⟩ := loads_onLocales_iff.1 hl
  refine ⟨w, sheets, baseTexts, hs, hl, ?_⟩
  rw [ht, totalOf_eq, resolveLocales, Catalog.build_onLocales, resolveLocale_onLocales,
    List.map_map]
  rfl

/-- A dry run counts the locales if their texts load. -/
theorem run_dryOnLocales (h : j.Shares d w sheets baseTexts)
    (ht : ∀ locale ∈ locales, (d.object? (w.textsPath locale)).isSome) :
    (j.dryOnLocales locales).run d
      = (.ok (Tally.sum (locales.map (localeTally w d sheets baseTexts))), d) := by
  have hl : (j.dryOnLocales locales).Loads d (w.onLocales locales) sheets baseTexts :=
    loads_onLocales_iff.2 ⟨w, rfl, ⟨h.workspace, h.sheets, h.baseTexts⟩, ht⟩
  have hrun := run_of_loads hl
  rw [resolveLocales, Catalog.build_onLocales, resolveLocale_onLocales] at hrun
  have htotal : totalOf ((w.onLocales locales).settings.locales.map
      (resolveLocale (Catalog.build w d sheets baseTexts) w d)) =
        Tally.sum (locales.map (localeTally w d sheets baseTexts)) := by
    rw [totalOf_eq, List.map_map]
    rfl
  rw [← htotal]
  exact hrun

/-- What a run leaves in a file other than the report: the resolved texts of the locale
whose file it is, or what was there. -/
theorem get?_files_run (h : j.Shares d w sheets baseTexts) {t : Tally} {d' : Directory}
    (hrun : (j.onLocales locales).run d = (.ok t, d')) (ho : HasOwnOutputs w d locales)
    {key : String} (hr : ¬ j.IsReport d key) :
    (j.dryRun = false → ∀ locale ∈ locales, key = d.fileKey (w.outputPath locale) →
      d'.files.get? key = some (Workspace.textsFile
        (resolveLocale (Catalog.build w d sheets baseTexts) w d locale).texts)) ∧
    (j.dryRun = true ∨ ¬ IsOutput w d locales key → d'.files.get? key = d.files.get? key) := by
  obtain ⟨_, _, _, hs, hl, -⟩ := run_onLocales_eq_ok hrun
  obtain ⟨rfl, rfl, rfl⟩ := hs.unique h
  have hg := grows_run hl
  rw [hrun] at hg
  constructor
  · rintro hd locale hlocale rfl
    have hd : (j.onLocales locales).dryRun = false := hd
    have hread := read?_run hd hl (by rw [hrun]; rfl) ho hlocale hr
    rw [hrun, Catalog.build_onLocales, resolveLocale_onLocales] at hread
    rw [← Directory.fileKey_congr hg.place]
    exact Directory.get?_of_read? hread
  · intro hn
    refine hg.same key ?_
    rintro (⟨hd, ho⟩ | hr')
    · rcases hn with hd' | ho'
      · exact absurd (hd'.symm.trans hd) (by decide)
      · exact ho' ho
    · exact hr hr'

/-- Runs over the same locales in another order leave the same in all files but the report. -/
theorem get?_files_perm (h : j.Shares d w sheets baseTexts) {others : List String}
    (hp : locales.Perm others) {t t' : Tally} {d₁ d₂ : Directory}
    (h₁ : (j.onLocales locales).run d = (.ok t, d₁))
    (h₂ : (j.onLocales others).run d = (.ok t', d₂)) (ho : HasOwnOutputs w d locales)
    {key : String} (hr : ¬ j.IsReport d key) :
    d₁.files.get? key = d₂.files.get? key := by
  have ho' : HasOwnOutputs w d others := fun a ha b hb =>
    ho a (hp.mem_iff.2 ha) b (hp.mem_iff.2 hb)
  obtain ⟨hwritten, hkept⟩ := get?_files_run h h₁ ho hr
  obtain ⟨hwritten', hkept'⟩ := get?_files_run h h₂ ho' hr
  cases hd : j.dryRun with
  | true => exact (hkept (.inl hd)).trans (hkept' (.inl hd)).symm
  | false =>
    by_cases hout : IsOutput w d locales key
    · obtain ⟨locale, hl, hk⟩ := hout
      rw [hwritten hd locale hl hk, hwritten' hd locale (hp.mem_iff.1 hl) hk]
    · have hout' : ¬ IsOutput w d others key := fun ⟨locale, hl, hk⟩ =>
        hout ⟨locale, hp.mem_iff.2 hl, hk⟩
      exact (hkept (.inr hout)).trans (hkept' (.inr hout')).symm

end

/-- Locales do not influence each other. Two runs that succeed over the same locales in
different orders leave the same in all files but the report if different locales have
different files, count the same, and have the reports of each locale, which are those of a
dry run over it, in the order of the locales. Every run that succeeds counts what a dry run
over its locales counts, and over two lists one after the other it counts what dry runs
over each of them count. -/
theorem run_permuted (j : Job) (d : Directory) :
    (∀ A B : List String, A.Perm B → ∀ t t' d₁ d₂,
      (j.onLocales A).run d = (.ok t, d₁) → (j.onLocales B).run d = (.ok t', d₂) →
        ((∀ w, Workspace.load d j.folder = .ok w → HasOwnOutputs w d A) →
          ∀ key, ¬ j.IsReport d key → d₁.files.get? key = d₂.files.get? key) ∧
        t.replaced = t'.replaced ∧ t.skipped = t'.skipped ∧
        ∃ block : String → Tally,
          (∀ locale ∈ A, (j.dryOnLocales [locale]).run d = (.ok (block locale), d)) ∧
          t.errors = A.flatMap (fun locale => (block locale).errors) ∧
          t'.errors = B.flatMap fun locale => (block locale).errors) ∧
    (∀ A t d', (j.onLocales A).run d = (.ok t, d') → (j.dryOnLocales A).run d = (.ok t, d)) ∧
    (∀ A B t d', (j.onLocales (A ++ B)).run d = (.ok t, d') →
      ∃ u v, (j.dryOnLocales A).run d = (.ok u, d) ∧ (j.dryOnLocales B).run d = (.ok v, d) ∧
        t = u ++ v) := by
  refine ⟨fun A B hp t t' d₁ d₂ h₁ h₂ => ?_, fun A t d' h => ?_, fun A B t d' h => ?_⟩
  · obtain ⟨w, sheets, baseTexts, hs, hl, ht⟩ := run_onLocales_eq_ok h₁
    obtain ⟨_, _, _, hs', -, ht'⟩ := run_onLocales_eq_ok h₂
    obtain ⟨rfl, rfl, rfl⟩ := hs'.unique hs
    obtain ⟨hreplaced, hskipped, -⟩ := Tally.sum_perm (hp.map (localeTally w d sheets baseTexts))
    refine ⟨fun ho key hr => get?_files_perm hs hp h₁ h₂ (ho w hs.workspace) hr,
      by rw [ht, ht', hreplaced], by rw [ht, ht', hskipped],
      localeTally w d sheets baseTexts, ?_, ?_, ?_⟩
    · intro locale hlocale
      rw [run_dryOnLocales hs fun other ho => hl.texts other (List.mem_singleton.1 ho ▸ hlocale)]
      rw [List.map_singleton, Tally.sum_cons, Tally.sum_nil, Tally.append_empty]
    · rw [ht, Tally.errors_sum, List.flatMap_map]
    · rw [ht', Tally.errors_sum, List.flatMap_map]
  · obtain ⟨w, sheets, baseTexts, hs, hl, rfl⟩ := run_onLocales_eq_ok h
    exact run_dryOnLocales hs hl.texts
  · obtain ⟨w, sheets, baseTexts, hs, hl, rfl⟩ := run_onLocales_eq_ok h
    refine ⟨_, _, run_dryOnLocales hs fun locale ha => hl.texts locale (List.mem_append_left B ha),
      run_dryOnLocales hs fun locale hb => hl.texts locale (List.mem_append_right A hb), ?_⟩
    rw [List.map_append, Tally.sum_append]

theorem run_permuted_plain : ∃ t t' d₁ d₂,
    (plainJob ["en", "ru"]).run plainFolder = (.ok t, d₁) ∧
      (plainJob ["ru", "en"]).run plainFolder = (.ok t', d₂) ∧
      t.replaced = 2 ∧ t'.replaced = t.replaced ∧ t.skipped = 1 ∧ t'.skipped = t.skipped ∧
      d₁.read? "champion_text_ru.json" = some plainOutcome ∧
      ∀ key ≠ "report.json", d₁.files.get? key = d₂.files.get? key := by
  obtain ⟨t, d₁, h₁, hr, hs, hread⟩ := run_plain (List.mem_cons_self : ["en", "ru"] ∈ _)
  obtain ⟨t', d₂, h₂, -⟩ := run_plain (List.mem_cons_of_mem _ List.mem_cons_self)
  obtain ⟨hperm, -⟩ := run_permuted (plainJob []) plainFolder
  obtain ⟨hfiles, hreplaced, hskipped, -⟩ :=
    hperm _ _ (List.Perm.swap "ru" "en" []) t t' d₁ d₂ h₁ h₂
  refine ⟨t, t', d₁, d₂, h₁, h₂, hr, hreplaced.symm, hs, hskipped.symm, hread,
    fun key hk => hfiles (fun w hw => ?_) key ?_⟩
  · obtain rfl := Except.ok.inj (load_plain.symm.trans hw)
    exact hasOwnOutputs_plain Settings.default.locales
  · rintro ⟨path, hp, rfl⟩
    cases hp
    exact hk (by decide +kernel)

end Job

end SpellText
