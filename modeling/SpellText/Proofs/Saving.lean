import SpellText.Run
import SpellText.Proofs.Writing

/-!
# What a run writes

Writing a file changes the directory by that file and the folders around it
(`Workspace.grows_writeFile`), and the file can be read afterwards
(`Workspace.read?_writeFile`). Resolved texts are written one after the other, so a run
changes the files of its locales and the report, and no others (`Job.grows_publish`).

Where different locales have different files, the texts of each locale are in its file in
the end, unless the report went there (`Job.read?_publish`). A locale that is named twice
is written twice with the same texts.
-/

namespace SpellText

/-- The error is about a file that cannot be read or does not hold what it should. -/
def FileError.isOfReading : FileError → Bool
  | unreadable _ => true
  | badSettings _ => true
  | badSheets _ => true
  | badBundle _ => true
  | badTexts _ => true
  | baseLocale _ _ => true
  | folder _ => false
  | unwritable _ => false
  | report _ => false
  | logFolder _ => false

/-! ## Paths of texts -/

/-- The last piece of a text ends as the text does. -/
theorem Text.exists_split_append {separator : Char} {t : List Char} (ht : separator ∉ t) :
    ∀ s : List Char, ∃ pieces piece, split separator (s ++ t) = pieces ++ [piece ++ t]
  | [] => by
    refine ⟨[], [], ?_⟩
    induction t with
    | nil => rfl
    | cons c t ih =>
      have hc : c ≠ separator := fun h => ht (h ▸ List.mem_cons_self)
      have := ih (fun h => ht (List.mem_cons_of_mem _ h))
      simp only [List.nil_append] at this ⊢
      rw [split, if_neg hc, this]
  | c :: s => by
    obtain ⟨pieces, piece, h⟩ := exists_split_append ht s
    rw [List.cons_append, split, h]
    split
    · exact ⟨[] :: pieces, piece, rfl⟩
    · cases pieces with
      | nil => exact ⟨[], c :: piece, rfl⟩
      | cons first others => exact ⟨(c :: first) :: others, piece, rfl⟩

namespace Workspace

/-- A joined path ends with the path that was joined. -/
theorem toList_join (base tail : String) :
    ∃ s, (Path.join base tail).toList = s ++ tail.toList := by
  unfold Path.join
  split
  · exact ⟨[], rfl⟩
  · split
    · exact ⟨base.toList, String.toList_append⟩
    · exact ⟨(base ++ "/").toList, String.toList_append⟩

/-- The file of resolved texts is no device. -/
theorem notMem_names_outputPath (w : Workspace) (locale : String) {name : String}
    (h : (Location.start (w.outputPath locale)).2.getLast? = some name) : name ∉ Device.names := by
  have hout : ∃ base, w.outputPath locale = Path.join base (textsName locale) := by
    unfold outputPath
    split
    · exact ⟨_, rfl⟩
    · exact ⟨_, rfl⟩
  obtain ⟨base, hout⟩ := hout
  obtain ⟨s, hs⟩ := toList_join base (textsName locale)
  rw [textsName, String.toList_append, ← List.append_assoc] at hs
  obtain ⟨pieces, piece, hp⟩ := Text.exists_split_append (by decide : '/' ∉ ".json".toList)
    (s ++ ("champion_text_" ++ locale).toList)
  have hlast : name = String.ofList (piece ++ ".json".toList) := by
    unfold Location.start Path.components at h
    rw [hout, textsName, hs, hp] at h
    dsimp only at h
    split at h
    all_goals
      simp only [List.map_append, List.map_cons, List.map_nil, List.getLast?_concat] at h
      exact (Option.some.inj h).symm
  have hends : ∀ device ∈ Device.names, ¬ ".json".toList <:+ device.toList := by decide
  intro hm
  exact hends name hm ⟨piece, (hlast ▸ String.toList_ofList).symm⟩

/-! ## Files -/

section

variable {touched : String → Prop} (d : Directory) (path text : String) (bad : String → FileError)

/-- Making the folders of a file changes no file. -/
theorem grows_makeParent : Directory.Grows touched d (makeParent d path).2 := by
  unfold makeParent
  dsimp only
  split
  · exact .refl _ d
  · exact Directory.grows_makeFolders d _

/-- Writing a file changes that file only, also if it fails on the way. -/
theorem grows_writeFile : Directory.Grows (· = d.fileKey path) d (writeFile d path text bad).2 := by
  have hparent : Directory.Grows (· = d.fileKey path) d (makeParent d path).2 :=
    grows_makeParent d path
  unfold writeFile
  split
  · next h => rwa [h] at hparent
  · next d' h =>
    rw [h] at hparent
    split
    · next hw =>
      refine hparent.trans ((Directory.grows_write? hw).mono fun key hk => ?_)
      rw [hk, Directory.fileKey_congr hparent.place]
    · exact hparent

variable {d path text bad}

/-- A file that was written holds what was written, unless it is a device. -/
theorem read?_writeFile (h : (writeFile d path text bad).1 = .ok ())
    (hn : ∀ name, (Location.start path).2.getLast? = some name → name ∉ Device.names) :
    (writeFile d path text bad).2.read? path = some text := by
  unfold writeFile at h ⊢
  split
  · next hp =>
    rw [hp] at h
    cases h
  · next d' hp =>
    rw [hp] at h
    dsimp only at h
    split
    · next hw => exact Directory.read?_of_write? hw hn
    · next hw =>
      rw [hw] at h
      cases h

/-- Writing fails with an error of writing. -/
theorem isOfReading_writeFile (hb : (bad path).isOfReading = false) {e : FileError}
    (h : (writeFile d path text bad).1 = .error e) : e.isOfReading = false := by
  unfold writeFile at h
  split at h
  · cases h
    rfl
  · split at h
    · cases h
    · cases h
      exact hb

end

end Workspace

/-! ## Runs -/

namespace Job

open Workspace (textsFile)

/-- The key is that of the report. -/
def IsReport (j : Job) (d : Directory) (key : String) : Prop :=
  ∃ path, j.reportPath = some path ∧ key = d.fileKey path

/-- The key is that of the resolved texts of a locale in the list. -/
def IsOutput (w : Workspace) (d : Directory) (locales : List String) (key : String) : Prop :=
  ∃ locale ∈ locales, key = d.fileKey (w.outputPath locale)

/-- Different locales in the list have different files for their resolved texts. -/
def HasOwnOutputs (w : Workspace) (d : Directory) (locales : List String) : Prop :=
  ∀ a ∈ locales, ∀ b ∈ locales,
    d.fileKey (w.outputPath a) = d.fileKey (w.outputPath b) → a = b

section

variable (w : Workspace) {d : Directory}

/-- Saving goes on behind a locale that was saved, and ends at one that was not. -/
theorem saveAll_cons (r : Resolved) (rs : List Resolved) :
    (w.saveTexts r.locale r.texts d).1 = .ok () ∧
        saveAll w (r :: rs) d = saveAll w rs (w.saveTexts r.locale r.texts d).2 ∨
      (∃ e, (w.saveTexts r.locale r.texts d).1 = .error e) ∧
        saveAll w (r :: rs) d = w.saveTexts r.locale r.texts d := by
  rw [saveAll]
  rcases hs : w.saveTexts r.locale r.texts d with ⟨_ | _, d'⟩
  · exact .inr ⟨⟨_, rfl⟩, rfl⟩
  · exact .inl ⟨rfl, rfl⟩

/-- Saving a locale changes the file of its texts only. -/
theorem grows_saveTexts (r : Resolved) : Directory.Grows (· = d.fileKey (w.outputPath r.locale)) d
    (w.saveTexts r.locale r.texts d).2 :=
  Workspace.grows_writeFile d _ _ _

/-- Which files are those of locales depends on the place of the directory only. -/
theorem isOutput_congr {d d' : Directory} (h : d'.place = d.place) (locales : List String) :
    IsOutput w d' locales = IsOutput w d locales := by
  funext key
  unfold IsOutput
  simp only [Directory.fileKey_congr h]

/-- Only the files of the locales are written. -/
theorem grows_saveAll : ∀ (rs : List Resolved) (d : Directory),
    Directory.Grows (IsOutput w d (rs.map (·.locale))) d (saveAll w rs d).2
  | [], d => .refl _ d
  | r :: rs, d => by
    have hr : Directory.Grows (IsOutput w d ((r :: rs).map (·.locale))) d
        (w.saveTexts r.locale r.texts d).2 :=
      (grows_saveTexts w r).mono fun key hk => ⟨r.locale, List.mem_cons_self, hk⟩
    rcases saveAll_cons w r rs with ⟨-, he⟩ | ⟨-, he⟩ <;> rw [he]
    · refine hr.trans ((grows_saveAll rs _).mono fun key hk => ?_)
      rw [isOutput_congr w hr.place] at hk
      obtain ⟨locale, hl, hk⟩ := hk
      exact ⟨locale, List.mem_cons_of_mem _ hl, hk⟩
    · exact hr

/-- The texts of every locale are in its file in the end. -/
theorem read?_saveAll {texts : String → Texts} : ∀ {rs : List Resolved} {d : Directory},
    (∀ r ∈ rs, r.texts = texts r.locale) → HasOwnOutputs w d (rs.map (·.locale)) →
      (saveAll w rs d).1 = .ok () → ∀ locale ∈ rs.map (·.locale),
        (saveAll w rs d).2.read? (w.outputPath locale) = some (textsFile (texts locale))
  | [], _, _, _, _, _, hl => nomatch hl
  | r :: rs, d, ht, ho, hok, locale, hl => by
    rcases saveAll_cons w r rs with ⟨hr, he⟩ | ⟨⟨_, hr⟩, he⟩ <;> rw [he] at hok ⊢
    · have hg := grows_saveTexts w r (d := d)
      by_cases hlater : locale ∈ rs.map (·.locale)
      · refine read?_saveAll (fun r hr => ht r (List.mem_cons_of_mem _ hr)) ?_ hok locale hlater
        intro a ha b hb hab
        rw [Directory.fileKey_congr hg.place, Directory.fileKey_congr hg.place] at hab
        exact ho a (List.mem_cons_of_mem _ ha) b (List.mem_cons_of_mem _ hb) hab
      · -- A locale that is not written again keeps what was written.
        obtain rfl : locale = r.locale := (List.mem_cons.1 hl).resolve_right hlater
        refine (grows_saveAll w rs _).read? ?_ ?_
        · rw [← ht r List.mem_cons_self]
          exact Workspace.read?_writeFile hr fun _ => w.notMem_names_outputPath r.locale
        · rw [isOutput_congr w hg.place, Directory.fileKey_congr hg.place]
          rintro ⟨other, hother, hk⟩
          have := ho r.locale List.mem_cons_self other (List.mem_cons_of_mem _ hother) hk
          exact hlater (this ▸ hother)
    · rw [hr] at hok
      cases hok

/-- An error in saving is one of writing, whichever locale it comes from. -/
theorem isOfReading_saveAll : ∀ {rs : List Resolved} {d : Directory} {e : FileError},
    (saveAll w rs d).1 = .error e → e.isOfReading = false
  | r :: rs, d, e, h => by
    rcases saveAll_cons w r rs (d := d) with ⟨-, he⟩ | ⟨-, he⟩ <;> rw [he] at h
    · exact isOfReading_saveAll h
    · exact Workspace.isOfReading_writeFile rfl h

/-- The texts are written, unless only a report is wanted. -/
def saveUnlessDry (j : Job) (rs : List Resolved) (d : Directory) :
    Except FileError Unit × Directory :=
  if j.dryRun then (.ok (), d) else saveAll w rs d

/-- The report is written where saving succeeded, and saving that failed is the end. -/
theorem publish_cases (j : Job) (rs : List Resolved) :
    (j.saveUnlessDry w rs d).1 = .ok () ∧ j.publish w rs d
        = writeReport j.reportPath (totalOf rs) (j.saveUnlessDry w rs d).2 ∨
      (∃ e, (j.saveUnlessDry w rs d).1 = .error e) ∧
        j.publish w rs d = j.saveUnlessDry w rs d := by
  unfold publish
  rw [← saveUnlessDry]
  rcases j.saveUnlessDry w rs d with ⟨_ | _, d'⟩
  · exact .inr ⟨⟨_, rfl⟩, rfl⟩
  · exact .inl ⟨rfl, rfl⟩

/-- Saving changes the files of the locales only, and in a dry run none. -/
theorem grows_saveUnlessDry (j : Job) (rs : List Resolved) :
    Directory.Grows (fun key => j.dryRun = false ∧ IsOutput w d (rs.map (·.locale)) key) d
      (j.saveUnlessDry w rs d).2 := by
  unfold saveUnlessDry
  split
  · exact .refl _ d
  · next hd =>
    exact (grows_saveAll w rs d).mono fun key hk => ⟨Bool.eq_false_iff.2 hd, hk⟩

/-- Writing the report changes its file only. -/
theorem grows_writeReport (j : Job) (t : Tally) :
    Directory.Grows (j.IsReport d) d (writeReport j.reportPath t d).2 := by
  cases hp : j.reportPath with
  | none => exact .refl _ d
  | some path =>
    exact (Workspace.grows_writeFile d path _ _).mono fun key hk => ⟨path, hp, hk⟩

/-- Which file is the report depends on the place of the directory only. -/
theorem isReport_congr (j : Job) {d d' : Directory} (h : d'.place = d.place) :
    j.IsReport d' = j.IsReport d := by
  funext key
  unfold IsReport
  simp only [Directory.fileKey_congr h]

/-- A run writes the files of its locales, unless it is dry, and the report. -/
theorem grows_publish (j : Job) (rs : List Resolved) :
    Directory.Grows (fun key => j.dryRun = false ∧ IsOutput w d (rs.map (·.locale)) key ∨
      j.IsReport d key) d (j.publish w rs d).2 := by
  have hs := grows_saveUnlessDry w (d := d) j rs
  rcases publish_cases w (d := d) j rs with ⟨-, he⟩ | ⟨-, he⟩ <;> rw [he]
  · refine (hs.mono fun _ hk => .inl hk).trans ((grows_writeReport j _).mono fun key hk => .inr ?_)
    rwa [isReport_congr j hs.place] at hk
  · exact hs.mono fun _ hk => .inl hk

/-- The texts of every locale are in its file in the end, unless the report went there. -/
theorem read?_publish {j : Job} (hd : j.dryRun = false) {rs : List Resolved}
    (texts : String → Texts) (ht : ∀ r ∈ rs, r.texts = texts r.locale)
    (ho : HasOwnOutputs w d (rs.map (·.locale))) (hok : (j.publish w rs d).1 = .ok ())
    {locale : String} (hl : locale ∈ rs.map (·.locale))
    (hr : ¬ j.IsReport d (d.fileKey (w.outputPath locale))) :
    (j.publish w rs d).2.read? (w.outputPath locale) = some (textsFile (texts locale)) := by
  have hsave : j.saveUnlessDry w rs d = saveAll w rs d := by rw [saveUnlessDry, hd]; rfl
  have hs := grows_saveUnlessDry w (d := d) j rs
  rcases publish_cases w (d := d) j rs with ⟨hok', he⟩ | ⟨⟨_, herr⟩, he⟩ <;> rw [he] at hok ⊢
  · refine (grows_writeReport j _).read? ?_ ?_
    · rw [hsave] at hok' ⊢
      exact read?_saveAll w ht ho hok' locale hl
    · rwa [isReport_congr j hs.place, Directory.fileKey_congr hs.place]
  · rw [herr] at hok
    cases hok

/-- An error in publishing is one of writing. -/
theorem isOfReading_publish {j : Job} {rs : List Resolved} {e : FileError}
    (h : (j.publish w rs d).1 = .error e) : e.isOfReading = false := by
  rcases publish_cases w (d := d) j rs with ⟨-, he⟩ | ⟨-, he⟩ <;> rw [he] at h
  · unfold writeReport at h
    split at h
    · cases h
    · exact Workspace.isOfReading_writeFile rfl h
  · unfold saveUnlessDry at h
    split at h
    · cases h
    · exact isOfReading_saveAll w h

end

end Job

end SpellText
