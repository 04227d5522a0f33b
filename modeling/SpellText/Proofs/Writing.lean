import SpellText.Files.Directory

/-!
# What writing changes

Making folders and writing files only adds to a directory (`Directory.Grows`): it stays in
its place, folders stay folders, files stay files and no file becomes a folder, and the
texts of files change only where one is written. So a path that led somewhere still leads
there (`Grows.locate`), and a file that is not written keeps its text under every path
(`Grows.read?`).

The point to prove is that a file does not become a folder by another one that is written
below it. This cannot be, since all folders on the way to a file that is written are there
before (`Directory.IsReached`), and the text of a location tells its names
(`Location.exists_append_of_key`).
-/

namespace SpellText

namespace Location

/-- No name has a slash in it. -/
def IsClean (l : Location) : Prop := ∀ name ∈ l, '/' ∉ name.toList

/-- A clean location stays clean with a name behind it that holds no slash. -/
theorem IsClean.append {l : Location} (h : l.IsClean) {name : String} (hn : '/' ∉ name.toList) :
    IsClean (l ++ [name]) := by
  intro other ho
  rcases List.mem_append.1 ho with ho | ho
  · exact h other ho
  · rwa [List.mem_singleton.1 ho]

theorem IsClean.of_prefix {front l : Location} (h : l.IsClean) (hp : front <+: l) :
    IsClean front :=
  fun name hn => h name (hp.subset hn)

theorem toList_key_singleton (name : String) : (key [name]).toList = name.toList := by
  simp [key]

theorem toList_key_cons (name : String) {l : Location} (h : l ≠ []) :
    (key (name :: l)).toList = name.toList ++ '/' :: (key l).toList := by
  obtain ⟨next, rest, rfl⟩ := List.exists_cons_of_ne_nil h
  simp [key]

/-- The first slash tells where a text without slashes ends. -/
theorem append_slash_inj : ∀ {s s' rest rest' : List Char}, '/' ∉ s → '/' ∉ s' →
    s ++ '/' :: rest = s' ++ '/' :: rest' → s = s' ∧ rest = rest'
  | [], [], _, _, _, _, h => ⟨rfl, (List.cons.inj h).2⟩
  | [], c :: s', _, _, _, hs', h => absurd (List.cons.inj h).1 (List.ne_of_not_mem_cons hs')
  | c :: s, [], _, _, hs, _, h => absurd (List.cons.inj h).1.symm (List.ne_of_not_mem_cons hs)
  | c :: s, c' :: s', _, _, hs, hs', h => by
    obtain ⟨rfl, h'⟩ := List.cons.inj h
    obtain ⟨rfl, hr⟩ := append_slash_inj (List.not_mem_of_not_mem_cons hs)
      (List.not_mem_of_not_mem_cons hs') h'
    exact ⟨rfl, hr⟩

/-- What is written below a location, as a text, lies below it. -/
theorem exists_append_of_key {l l' : Location} (hl : l ≠ []) (hc : l.IsClean) (hl' : l' ≠ [])
    (hc' : l'.IsClean) {rest : List Char} (h : l'.key.toList = l.key.toList ++ '/' :: rest) :
    ∃ tail, tail ≠ [] ∧ l' = l ++ tail := by
  induction l generalizing l' with
  | nil => exact absurd rfl hl
  | cons name l ih =>
    obtain ⟨name', tail, rfl⟩ := List.exists_cons_of_ne_nil hl'
    have hn := hc name List.mem_cons_self
    have hn' := hc' name' List.mem_cons_self
    -- The key of `name :: l` begins with the name, and a slash comes next in either case.
    have hkey : ∃ rest', (key (name :: l)).toList ++ '/' :: rest = name.toList ++ '/' :: rest' ∧
        (l ≠ [] → rest' = (key l).toList ++ '/' :: rest) := by
      cases l with
      | nil => exact ⟨rest, by rw [toList_key_singleton], fun h => absurd rfl h⟩
      | cons next l =>
        exact ⟨_, by rw [toList_key_cons name (List.cons_ne_nil next l), List.append_assoc]; rfl,
          fun _ => rfl⟩
    obtain ⟨rest', hkey, hrest⟩ := hkey
    rw [hkey] at h
    by_cases ht : tail = []
    · rw [ht, toList_key_singleton] at h
      exact absurd (h ▸ List.mem_append_right _ List.mem_cons_self) hn'
    · rw [toList_key_cons name' ht] at h
      obtain ⟨hname, htail⟩ := append_slash_inj hn' hn h
      obtain rfl := String.toList_inj.1 hname
      by_cases hnil : l = []
      · exact ⟨tail, ht, by rw [hnil]; rfl⟩
      · obtain ⟨tail', ht', rfl⟩ :=
          ih hnil (fun other ho => hc other (List.mem_cons_of_mem _ ho)) ht
          (fun other ho => hc' other (List.mem_cons_of_mem _ ho)) (htail.trans (hrest hnil))
        exact ⟨tail', ht', rfl⟩

end Location

/-- The names of the devices. -/
def Device.names : List String := ["null", "zero", "random", "urandom", "full", "tty"]

theorem Device.at?_append {front : Location} {name : String} (h : name ∉ names) :
    at? (front ++ [name]) = none := by
  have hlast : ∀ other, front ++ [name] = ["", "dev", other] → name = other := fun other he => by
    simpa using congrArg List.getLast? he
  unfold at?
  split
  all_goals first
    | rfl
    | next he => exact absurd (hlast _ he ▸ by decide) h

namespace Directory

/-! ## Where paths lead -/

/-- Where a path leads if everything on the way exists. -/
def target (d : Directory) (path : String) : Location :=
  (Location.start path).2.foldl d.along (Location.start path).1

/-- The key of the file that a path leads to. -/
def fileKey (d : Directory) (path : String) : String := (d.target path).key

theorem along_congr {d d' : Directory} (h : d'.place = d.place) : d'.along = d.along := by
  funext l c
  rw [along, along, h]

/-- The key of a path depends on the place of the directory only. -/
theorem fileKey_congr {d d' : Directory} (h : d'.place = d.place) (path : String) :
    d'.fileKey path = d.fileKey path := by
  rw [fileKey, fileKey, target, target, along_congr h]

/-- A step leads to a folder on the way, or to a name behind it. -/
theorem along_cases (d : Directory) (l : Location) (c : String) :
    d.along l c <+: l ∨ ∃ name, d.along l c = l ++ [name] ∧ (name = c ∨ name = "..") := by
  unfold along
  dsimp only
  split
  · exact .inl l.nil_prefix
  · unfold Location.along
    split
    · exact .inl l.prefix_refl
    · split
      · unfold Location.above
        split
        · next h => exact .inr ⟨"..", by rw [List.getLast?_eq_none_iff.1 h]; rfl, .inr rfl⟩
        · exact .inr ⟨"..", rfl, .inr rfl⟩
        · exact .inl l.prefix_refl
        · exact .inl l.dropLast_prefix
      · exact .inr ⟨c, rfl, .inl rfl⟩

/-- The way along a name without slashes leads from clean locations to clean ones. -/
theorem isClean_along (d : Directory) {l : Location} (h : l.IsClean) {c : String}
    (hc : '/' ∉ c.toList) : (d.along l c).IsClean := by
  rcases d.along_cases l c with hp | ⟨name, hn, rfl | rfl⟩
  · exact h.of_prefix hp
  · rw [hn]
    exact h.append hc
  · rw [hn]
    exact h.append (by decide)

/-- The components of a path have no slashes. -/
theorem notMem_of_mem_start {path name : String} (h : name ∈ (Location.start path).2) :
    '/' ∉ name.toList := by
  have hn : name ∈ (Path.components path.toList).map String.ofList := by
    unfold Location.start at h
    dsimp only at h
    split at h <;> exact h
  obtain ⟨piece, hp, rfl⟩ := List.mem_map.1 hn
  rw [String.toList_ofList]
  exact Text.not_mem_of_mem_split hp

theorem start_eq (path : String) :
    (Location.start path).1 = [] ∨ (Location.start path).1 = [""] := by
  unfold Location.start
  dsimp only
  split
  · exact .inr rfl
  · exact .inl rfl

theorem isClean_start (path : String) : Location.IsClean (Location.start path).1 := by
  rcases start_eq path with h | h <;> rw [h]
  · exact fun name hn => nomatch hn
  · intro name hn
    rw [List.mem_singleton.1 hn]
    decide

theorem isClean_target (d : Directory) (path : String) : (d.target path).IsClean := by
  have hfold : ∀ {names : List String} {l : Location}, (∀ name ∈ names, '/' ∉ name.toList) →
      l.IsClean → Location.IsClean (names.foldl d.along l) := by
    intro names
    induction names with
    | nil => exact fun _ h => h
    | cons name names ih =>
      intro l hn h
      exact ih (fun other ho => hn other (List.mem_cons_of_mem _ ho))
        (d.isClean_along h (hn name List.mem_cons_self))
  exact hfold (fun _ => notMem_of_mem_start) (isClean_start path)

/-! ## Folders on the way -/

section

variable {d : Directory} {l next : Location} {c : String}

/-- A step is taken into folders that are there, and to nowhere else. -/
theorem enter_eq_ok_iff : d.enter l c = .ok next ↔
    isComponent c = true ∧ next = d.along l c ∧ d.isFolder next = true := by
  unfold enter
  cases isComponent c with
  | false => simp
  | true =>
    cases hf : d.isFolder (d.along l c) with
    | true =>
      simp only [Bool.not_true, Bool.false_eq_true, if_false, hf, if_true, Except.ok.injEq,
        true_and]
      exact ⟨fun h => ⟨h.symm, h ▸ hf⟩, fun h => h.1.symm⟩
    | false =>
      simp only [Bool.not_true, Bool.false_eq_true, if_false, hf, true_and]
      refine ⟨fun h => ?_, fun h => ?_⟩
      · split at h <;> cases h
      · rw [h.1, hf] at h
        exact absurd h.2 (by decide)

/-- Where a step misses its folder, there is nothing. -/
theorem not_isTaken_of_enter (h : d.enter l c = .error .missing) :
    d.isTaken (d.along l c) = false := by
  unfold enter at h
  cases hc : isComponent c with
  | false => simp [hc] at h
  | true =>
    cases ht : d.isTaken (d.along l c) with
    | false => rfl
    | true =>
      simp only [hc, ht, Bool.not_true, Bool.false_eq_true, if_false, Bool.true_or, if_true] at h
      split at h <;> cases h

/-- A location all of whose folders exist. -/
structure IsReached (d : Directory) (l : Location) : Prop where
  clean : l.IsClean
  folder : ∀ front, front <+: l → d.isFolder front = true

/-- A path starts at a folder that is there. -/
theorem isReached_start (d : Directory) (path : String) : d.IsReached (Location.start path).1 where
  clean := isClean_start path
  folder front hf := by
    rcases start_eq path with h | h <;> rw [h] at hf
    · rw [List.prefix_nil.1 hf]
      rfl
    · rcases List.prefix_cons_iff.1 hf with rfl | ⟨rest, rfl, hr⟩
      · rfl
      · rw [List.prefix_nil.1 hr]
        rfl

/-- A step from a folder that is there leads to such a folder. -/
theorem IsReached.enter (h : d.IsReached l) (hc : '/' ∉ c.toList) (he : d.enter l c = .ok next) :
    d.IsReached next := by
  obtain ⟨-, rfl, hf⟩ := enter_eq_ok_iff.1 he
  refine ⟨d.isClean_along h.clean hc, fun front hp => ?_⟩
  rcases d.along_cases l c with hl | ⟨name, hn, -⟩
  · exact h.folder front (hp.trans hl)
  · rw [hn] at hp hf
    rcases List.prefix_concat_iff.1 hp with rfl | hp
    · exact hf
    · exact h.folder front hp

/-- Steps one after the other lead to such folders, along their names. -/
theorem IsReached.foldlM : ∀ {names : List String} {l : Location},
    (∀ name ∈ names, '/' ∉ name.toList) → d.IsReached l →
      ∀ {next}, names.foldlM d.enter l = .ok next →
        d.IsReached next ∧ next = names.foldl d.along l
  | [], _, _, h, _, he => by
    cases he
    exact ⟨h, rfl⟩
  | name :: names, l, hn, h, next, he => by
    rw [List.foldlM_cons] at he
    cases hs : d.enter l name with
    | error _ =>
      rw [hs] at he
      cases he
    | ok l' =>
      rw [hs] at he
      have hr := h.enter (hn name List.mem_cons_self) hs
      rw [List.foldl_cons, ← (enter_eq_ok_iff.1 hs).2.1]
      exact IsReached.foldlM (fun other ho => hn other (List.mem_cons_of_mem _ ho)) hr he

variable {path : String}

/-- A path leads to a folder all of whose folders exist, or to its last name in one. -/
theorem locate_eq_ok (h : d.locate path = .ok l) : l = d.target path ∧
    (d.IsReached l ∨ ∃ front last, (Location.start path).2.getLast? = some last ∧
      d.IsReached front ∧ l = d.along front last) := by
  unfold locate at h
  split at h
  · cases h
  · dsimp only at h
    split at h
    · next hn =>
      cases h
      rw [List.getLast?_eq_none_iff] at hn
      exact ⟨by rw [target, hn]; rfl, .inl (d.isReached_start path)⟩
    · next last hn =>
      obtain ⟨names, hnames⟩ := List.getLast?_eq_some_iff.1 hn
      cases he : (Location.start path).2.dropLast.foldlM d.enter (Location.start path).1 with
      | error _ =>
        rw [he] at h
        cases h
      | ok front =>
        rw [he] at h
        simp only [bind, Except.bind] at h
        split at h
        · cases h
          obtain ⟨hr, hf⟩ := (d.isReached_start path).foldlM
            (fun _ hm => notMem_of_mem_start (List.dropLast_subset _ hm)) he
          refine ⟨?_, .inr ⟨front, last, hn, hr, rfl⟩⟩
          rw [hf, target, hnames, List.dropLast_concat, List.foldl_append]
          rfl
        · cases h

/-- What is no folder lies under its name in folders that exist. -/
theorem exists_front_of_locate (h : d.locate path = .ok l) (hf : d.isFolder l = false) :
    ∃ front name, d.IsReached front ∧ l = front ++ [name] ∧
      (name = ".." ∨ (Location.start path).2.getLast? = some name) := by
  rcases (locate_eq_ok h).2 with hr | ⟨front, last, hn, hr, rfl⟩
  · rw [hr.folder l l.prefix_refl] at hf
    cases hf
  · rcases d.along_cases front last with hp | ⟨name, hl, rfl | rfl⟩
    · rw [hr.folder _ hp] at hf
      cases hf
    · exact ⟨front, name, hr, hl, .inr hn⟩
    · exact ⟨front, "..", hr, hl, .inl rfl⟩

end

/-- A file that can be read is there under the key of its path. -/
theorem get?_of_read? {d : Directory} {path text : String} (h : d.read? path = some text) :
    d.files.get? (d.fileKey path) = some text := by
  unfold read? at h
  cases hl : d.locate path with
  | error _ =>
    rw [hl] at h
    cases h
  | ok l =>
    rw [hl] at h
    dsimp only at h
    split at h
    · cases h
    · obtain rfl := (locate_eq_ok hl).1
      exact h

/-! ## Growing -/

/-- The directory `d'` is `d` with more in it: folders were made, and files were written
whose keys are `touched`. -/
structure Grows (touched : String → Prop) (d d' : Directory) : Prop where
  place : d'.place = d.place
  same : ∀ key, ¬ touched key → d'.files.get? key = d.files.get? key
  kept : ∀ key, (d.files.get? key).isSome → (d'.files.get? key).isSome
  folder : ∀ l, d.isFolder l = true → d'.isFolder l = true
  file : ∀ l : Location, l.IsClean → d.isFile l = true → d.isFolder l = false →
    d'.isFolder l = false

namespace Grows

variable {touched touched' : String → Prop} {d d' d'' : Directory}

protected theorem refl (touched : String → Prop) (d : Directory) : Grows touched d d where
  place := rfl
  same _ _ := rfl
  kept _ h := h
  folder _ h := h
  file _ _ _ h := h

protected theorem trans (h : Grows touched d d') (h' : Grows touched d' d'') :
    Grows touched d d'' where
  place := h'.place.trans h.place
  same key hk := (h'.same key hk).trans (h.same key hk)
  kept key hk := h'.kept key (h.kept key hk)
  folder l hl := h'.folder l (h.folder l hl)
  file l hc hl hf := h'.file l hc (h.kept l.key hl) (h.file l hc hl hf)

/-- What changed some files only changed no more than further ones. -/
theorem mono (h : Grows touched d d') (ht : ∀ key, touched key → touched' key) :
    Grows touched' d d' where
  place := h.place
  same key hk := h.same key fun hk' => hk (ht key hk')
  kept := h.kept
  folder := h.folder
  file := h.file

/-- A file that is not what it was is one that may have changed. -/
theorem touched_of_ne (h : Grows touched d d') {key : String}
    (hk : d'.files.get? key ≠ d.files.get? key) : touched key :=
  Classical.byContradiction fun ht => hk (h.same key ht)

/-- A step that could be taken can be taken still. -/
theorem enter (h : Grows touched d d') {l next : Location} {c : String}
    (he : d.enter l c = .ok next) : d'.enter l c = .ok next := by
  obtain ⟨hc, hn, hf⟩ := enter_eq_ok_iff.1 he
  exact enter_eq_ok_iff.2 ⟨hc, by rw [along_congr h.place, hn], h.folder next hf⟩

/-- So can steps one after the other. -/
theorem foldlM (h : Grows touched d d') : ∀ {names : List String} {l next : Location},
    names.foldlM d.enter l = .ok next → names.foldlM d'.enter l = .ok next
  | [], _, _, he => he
  | name :: names, l, next, he => by
    rw [List.foldlM_cons] at he ⊢
    cases hs : d.enter l name with
    | error _ =>
      rw [hs] at he
      cases he
    | ok l' =>
      rw [hs] at he
      rw [h.enter hs]
      exact h.foldlM he

/-- A path that leads somewhere still leads there. -/
theorem locate (h : Grows touched d d') {path : String} {l : Location}
    (hl : d.locate path = .ok l) : d'.locate path = .ok l := by
  unfold Directory.locate at hl ⊢
  rw [along_congr h.place]
  split at hl
  · cases hl
  · next hu =>
    rw [if_neg hu]
    dsimp only at hl ⊢
    split at hl
    · exact hl
    · cases he : (Location.start path).2.dropLast.foldlM d.enter (Location.start path).1 with
      | error _ =>
        rw [he] at hl
        cases hl
      | ok front =>
        rw [he] at hl
        rw [h.foldlM he]
        exact hl

/-- A file that is not written keeps its text. -/
theorem read? (h : Grows touched d d') {path text : String} (hr : d.read? path = some text)
    (ht : ¬ touched (d.fileKey path)) : d'.read? path = some text := by
  unfold Directory.read? at hr ⊢
  cases hl : d.locate path with
  | error _ =>
    rw [hl] at hr
    cases hr
  | ok l =>
    rw [hl] at hr
    dsimp only at hr
    split at hr
    · cases hr
    · next hf =>
      obtain rfl := (locate_eq_ok hl).1
      have hfile : d.isFile (d.target path) = true := by rw [isFile, hr]; rfl
      have hf' := h.file _ (d.isClean_target path) hfile (Bool.eq_false_iff.2 hf)
      rw [h.locate hl]
      dsimp only
      rw [hf', if_neg (by decide)]
      exact (h.same _ ht).trans hr

end Grows

/-! ## Making folders -/

/-- A new folder is there with those that were. -/
theorem isFolder_addFolder (d : Directory) (l l' : Location) :
    (d.addFolder l).isFolder l' = (l'.key == l.key || d.isFolder l') := by
  unfold isFolder addFolder
  simp only [List.contains_cons]
  cases l'.key == l.key <;> cases l'.isGiven <;> rfl

variable {touched : String → Prop} {d : Directory}

/-- A new folder where there was nothing changes no file. -/
theorem grows_addFolder {l : Location} (h : d.isTaken l = false) :
    Grows touched d (d.addFolder l) where
  place := rfl
  same _ _ := rfl
  kept _ h := h
  folder l' hl := by rw [isFolder_addFolder, hl, Bool.or_true]
  file l' _ hl hf := by
    rw [isFolder_addFolder, hf, Bool.or_false, beq_eq_false_iff_ne]
    intro hk
    rw [isTaken, isFile, ← hk, ← isFile, hl] at h
    cases h

theorem grows_makeAlong : ∀ (d : Directory) (l : Location) (names : List String),
    Grows touched d (d.makeAlong l names).2
  | d, _, [] => .refl _ d
  | d, l, c :: names => by
    unfold makeAlong
    split
    · next next _ => exact grows_makeAlong d next names
    · next h => exact (grows_addFolder (not_isTaken_of_enter h)).trans (grows_makeAlong _ _ names)
    · exact .refl _ d

/-- Making the folders of a path changes no file. -/
theorem grows_makeFolders (d : Directory) (path : String) :
    Grows touched d (d.makeFolders path).2 := by
  unfold makeFolders
  split
  · exact .refl _ d
  · dsimp only
    split
    · exact grows_makeAlong d _ _
    · split
      · exact .refl _ d
      · exact .refl _ d
      · split
        · next h => exact congrArg Prod.snd h ▸ grows_makeAlong d _ _
        · next h => exact congrArg Prod.snd h ▸ grows_makeAlong d _ _

/-! ## Writing files -/

theorem mem_keys_insert {t : Table String} {key text : String} {k : String} :
    k ∈ (t.insert key text).keys ↔ k = key ∨ k ∈ t.keys := by
  unfold Table.insert
  rw [Table.keys_update]
  split
  · next h => exact ⟨.inr, fun hk => hk.elim (fun he => he ▸ h) fun hk => hk⟩
  · rw [List.mem_append, List.mem_singleton, or_comm]

/-- What is written goes to a file in a folder, or is lost. -/
theorem write?_eq_some {path text : String} {d' : Directory} (h : d.write? path text = some d') :
    d.locate path = .ok (d.target path) ∧ d.isFolder (d.target path) = false ∧
      (d' = { d with files := d.files.insert (d.fileKey path) text } ∨
        d' = d ∧ Device.at? (d.target path) ≠ none) := by
  unfold write? at h
  split at h
  · next l name hl hn =>
    obtain rfl := (locate_eq_ok hl).1
    split at h
    · cases h
    · next hc =>
      simp only [Bool.or_eq_true, not_or, Bool.not_eq_true] at hc
      refine ⟨hl, hc.1.2, ?_⟩
      split at h
      · next hd =>
        cases h
        exact .inr ⟨rfl, by rw [hd]; nofun⟩
      · cases h
      · cases h
        exact .inl rfl
  · cases h

/-- A file that is written below another one would need it to be a folder. -/
theorem isFolder_insert {path text : String} (hl : d.locate path = .ok (d.target path))
    (hf : d.isFolder (d.target path) = false) {l : Location} (hc : l.IsClean)
    (h : d.isFolder l = false) :
    isFolder { d with files := d.files.insert (d.fileKey path) text } l = false := by
  obtain ⟨front, name, hr, htarget, -⟩ := exists_front_of_locate hl hf
  have hne : l ≠ [] := by
    rintro rfl
    cases h
  unfold isFolder at h ⊢
  simp only [Bool.or_eq_false_iff, List.any_eq_false] at h ⊢
  refine ⟨h.1, fun k hk hp => ?_⟩
  rcases mem_keys_insert.1 hk with rfl | hk
  · obtain ⟨rest, hrest⟩ := List.isPrefixOf_iff_prefix.1 hp
    rw [String.toList_append, List.append_assoc] at hrest
    have htne : d.target path ≠ [] := by
      rw [htarget]
      exact List.concat_ne_nil _ _
    obtain ⟨tail, htail, he⟩ := Location.exists_append_of_key hne hc htne
      (d.isClean_target path) hrest.symm
    have hfront : l <+: front := by
      have hp : l <+: front ++ [name] := ⟨tail, by rw [← he, htarget]⟩
      rcases List.prefix_concat_iff.1 hp with rfl | hp
      · rw [htarget] at he
        exact absurd (List.self_eq_append_right.1 he) htail
      · exact hp
    have hfolder := hr.folder l hfront
    unfold isFolder at hfolder
    simp only [h.1.1, h.1.2, Bool.false_or, List.any_eq_true] at hfolder
    obtain ⟨k, hk, hkp⟩ := hfolder
    exact h.2 k hk hkp
  · exact h.2 k hk hp

/-- A file that is put where there is no folder changes no other file. -/
theorem grows_insert {path text : String} (hl : d.locate path = .ok (d.target path))
    (hf : d.isFolder (d.target path) = false) : Grows (· = d.fileKey path) d
      { d with files := d.files.insert (d.fileKey path) text } where
  place := rfl
  same key hk := by
    show (d.files.insert _ _).get? key = _
    rw [Table.get?_insert, if_neg hk]
  kept key hk := by
    show ((d.files.insert _ _).get? key).isSome = _
    rw [Table.get?_insert]
    split
    · rfl
    · exact hk
  folder l h := by
    unfold isFolder at h ⊢
    simp only [Bool.or_eq_true, List.any_eq_true] at h ⊢
    refine h.imp_right fun ⟨k, hk, hp⟩ => ⟨k, mem_keys_insert.2 (.inr hk), hp⟩
  file l hc _ h := isFolder_insert hl hf hc h

/-- Writing to a path changes no other file. -/
theorem grows_write? {path text : String} {d' : Directory} (h : d.write? path text = some d') :
    Grows (· = d.fileKey path) d d' := by
  obtain ⟨hl, hf, rfl | ⟨rfl, -⟩⟩ := write?_eq_some h
  · exact grows_insert hl hf
  · exact .refl _ d'

/-- What was written is read, unless it went to a device. -/
theorem read?_of_write? {path text : String} {d' : Directory} (h : d.write? path text = some d')
    (hn : ∀ name, (Location.start path).2.getLast? = some name → name ∉ Device.names) :
    d'.read? path = some text := by
  obtain ⟨hl, hf, rfl | ⟨-, hne⟩⟩ := write?_eq_some h
  · have hg : Grows _ d { d with files := d.files.insert (d.fileKey path) text } :=
      grows_insert hl hf
    unfold read?
    rw [hg.locate hl]
    dsimp only
    rw [isFolder_insert hl hf (d.isClean_target path) hf, if_neg (by decide)]
    exact (Table.get?_insert ..).trans (if_pos rfl)
  · obtain ⟨front, name, -, htarget, hname⟩ := exists_front_of_locate hl hf
    refine absurd (htarget ▸ Device.at?_append (hname.elim (fun he => ?_) (hn name))) hne
    rw [he]
    decide

end Directory

end SpellText
