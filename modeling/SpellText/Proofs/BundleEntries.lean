import SpellText.Record.Spell

/-!
# Entries of a spell in a bundle

A bundle may hold several entries whose paths end with the same script name. The first one
decides : its data is what is found (`Bundle.findSpell?_eq_some_iff`), also where it cannot
be read. The first entry that can be read (`Bundle.firstReadable?`) is found unless an
earlier one of the same name cannot (`Bundle.HidesReadable`); then nothing is found.
`Bundle.findSpell?_firstReadable` puts this together, and `Bundle.exists_hidden_entry` is
a bundle in which a broken entry hides a good one.
-/

namespace SpellText.Bundle

open Text (lowercase)

/-! ## Entries of a script name -/

/-- The entry is an object and its path ends with a slash and the script name, in any
case of letters. -/
def IsEntryOf (script : String) (e : String × Json) : Prop :=
  e.2.isObject = true ∧ '/' :: lowercase script.toList <:+ lowercase e.1.toList

instance (script : String) (e : String × Json) : Decidable (IsEntryOf script e) :=
  inferInstanceAs (Decidable (_ ∧ _))

/-- The numbers and formulas in an entry. -/
def read? (e : String × Json) : Option SpellData := Record.spellData? (payload e.2)

/-- What the first entry of the script name says that can be read. -/
def firstReadable? (b : Bundle) (script : String) : Option SpellData :=
  b.entries.findSome? fun e => if IsEntryOf script e then read? e else none

/-- The first entry of the script name cannot be read, but one behind it can. -/
def HidesReadable (b : Bundle) (script : String) : Prop :=
  ∃ before e after, b.entries = before ++ e :: after ∧ (∀ e' ∈ before, ¬ IsEntryOf script e') ∧
    IsEntryOf script e ∧ read? e = none ∧ ∃ e' ∈ after, IsEntryOf script e' ∧ read? e' ≠ none

section

variable {b : Bundle} {script : String} {d : SpellData}

/-! ## What is found -/

/-- The data of a script are those of the first entry of that name. -/
theorem findSpell?_eq_bind (h : script ≠ "") :
    b.findSpell? script = (b.entries.find? fun e => IsEntryOf script e).bind read? := by
  have he : script.isEmpty = false := Bool.eq_false_iff.2 fun he => h (String.isEmpty_iff.1 he)
  have htest : (fun e : String × Json => e.2.isObject && isPathOf script e.1)
      = fun e => decide (IsEntryOf script e) := by
    funext e
    rw [Bool.eq_iff_iff, decide_eq_true_iff, Bool.and_eq_true, isPathOf,
      List.isSuffixOf_iff_suffix, IsEntryOf]
  rw [findSpell?, entry?, he, if_neg Bool.false_ne_true, htest]
  cases b.entries.find? fun e => IsEntryOf script e <;> rfl

/-- The first entry of the script name is found where it can be read. -/
theorem findSpell?_eq_some_iff (h : script ≠ "") : b.findSpell? script = some d ↔
    ∃ before e after, b.entries = before ++ e :: after ∧
      (∀ e' ∈ before, ¬ IsEntryOf script e') ∧ IsEntryOf script e ∧ read? e = some d := by
  simp only [findSpell?_eq_bind h, Option.bind_eq_some_iff, List.find?_eq_some_iff_append,
    decide_eq_true_iff, Bool.not_eq_true', decide_eq_false_iff_not]
  constructor
  · rintro ⟨e, ⟨he, before, after, hs, hb⟩, hd⟩
    exact ⟨before, e, after, hs, hb, he, hd⟩
  · rintro ⟨before, e, after, hs, hb, he, hd⟩
    exact ⟨e, ⟨he, before, after, hs, hb⟩, hd⟩

/-- The first readable entry is one with none in front. -/
theorem firstReadable?_eq_some_iff : b.firstReadable? script = some d ↔
    ∃ before e after, b.entries = before ++ e :: after ∧ IsEntryOf script e ∧ read? e = some d ∧
      ∀ e' ∈ before, IsEntryOf script e' → read? e' = none := by
  simp only [firstReadable?, List.findSome?_eq_some_iff, Option.ite_none_right_eq_some,
    ite_eq_right_iff, and_assoc]

theorem firstReadable?_eq_none_iff : b.firstReadable? script = none ↔
    ∀ e ∈ b.entries, IsEntryOf script e → read? e = none := by
  simp only [firstReadable?, List.findSome?_eq_none_iff, ite_eq_right_iff]

/-- What is found is what the first entry says that can be read. -/
theorem firstReadable?_of_findSpell? (h : script ≠ "") (hd : b.findSpell? script = some d) :
    b.firstReadable? script = some d := by
  obtain ⟨before, e, after, hs, hb, he, hr⟩ := (findSpell?_eq_some_iff h).1 hd
  exact firstReadable?_eq_some_iff.2
    ⟨before, e, after, hs, he, hr, fun e' he' hn => absurd hn (hb e' he')⟩

/-- An entry that can be read is missed where an earlier one hides it. -/
theorem hidesReadable_iff (h : script ≠ "") :
    b.HidesReadable script ↔ b.findSpell? script = none ∧ b.firstReadable? script ≠ none := by
  constructor
  · rintro ⟨before, e, after, hs, hb, he, hr, e', hmem, he', hr'⟩
    refine ⟨?_, fun hn => hr' ?_⟩
    · have hfind : b.entries.find? (fun e => decide (IsEntryOf script e)) = some e := by
        refine List.find?_eq_some_iff_append.2 ⟨decide_eq_true he, before, after, hs, ?_⟩
        intro e'' h''
        rw [decide_eq_false (hb e'' h''), Bool.not_false]
      rw [findSpell?_eq_bind h, hfind, Option.bind_some, hr]
    · refine firstReadable?_eq_none_iff.1 hn e' ?_ he'
      rw [hs]
      exact List.mem_append_right _ (List.mem_cons_of_mem _ hmem)
  · rintro ⟨hnone, hsome⟩
    obtain ⟨d, hd⟩ := Option.ne_none_iff_exists'.1 hsome
    obtain ⟨before', e', after', hs', he', hr', -⟩ := firstReadable?_eq_some_iff.1 hd
    have hmem : e' ∈ b.entries := by
      rw [hs']
      exact List.mem_append_right _ List.mem_cons_self
    rw [findSpell?_eq_bind h] at hnone
    -- Some entry has the script name, so that there is a first one; it is not the one that
    -- can be read.
    cases hfind : b.entries.find? (fun e => decide (IsEntryOf script e)) with
    | none => exact absurd (decide_eq_true he') (List.find?_eq_none.1 hfind e' hmem)
    | some e =>
      obtain ⟨he, before, after, hs, hb⟩ := List.find?_eq_some_iff_append.1 hfind
      have hb' : ∀ e'' ∈ before, ¬ IsEntryOf script e'' := fun e'' h'' hn => by
        have := hb e'' h''
        rw [decide_eq_true hn] at this
        cases this
      have hr : read? e = none := by rwa [hfind, Option.bind_some] at hnone
      have hafter : e' ∈ after := by
        rw [hs] at hmem
        rcases List.mem_append.1 hmem with h' | h'
        · exact absurd he' (hb' e' h')
        · rcases List.mem_cons.1 h' with rfl | h'
          · rw [hr] at hr'
            cases hr'
          · exact h'
      exact ⟨before, e, after, hs, hb', of_decide_eq_true he, hr, e', hafter, he',
        Option.ne_none_iff_exists'.2 ⟨d, hr'⟩⟩

/-- What the first entry says that can be read is found, unless an earlier entry of the
script name hides it. A bundle in which no entry can be read has nothing to find. -/
theorem findSpell?_firstReadable (b : Bundle) {script : String} (h : script ≠ "") :
    (¬ b.HidesReadable script → b.findSpell? script = b.firstReadable? script) ∧
      (b.HidesReadable script →
        b.findSpell? script = none ∧ b.firstReadable? script ≠ none) ∧
      (∀ d, b.firstReadable? script = some d ↔
        ∃ before e after, b.entries = before ++ e :: after ∧ IsEntryOf script e ∧
          read? e = some d ∧ ∀ e' ∈ before, IsEntryOf script e' → read? e' = none) ∧
      (b.firstReadable? script = none ↔
        ∀ e ∈ b.entries, IsEntryOf script e → read? e = none) := by
  refine ⟨fun hno => ?_, (hidesReadable_iff h).1, fun d => firstReadable?_eq_some_iff,
    firstReadable?_eq_none_iff⟩
  cases hf : b.findSpell? script with
  | some d => exact (firstReadable?_of_findSpell? h hf).symm
  | none =>
    cases hr : b.firstReadable? script with
    | none => rfl
    | some d => exact absurd ((hidesReadable_iff h).2 ⟨hf, hr ▸ nofun⟩) hno

end

/-! ## A broken entry in front of a good one -/

/-- An entry with a text where its numbers should be. -/
def brokenEntry : String × Json := ("A/Spells/AnnieQ", .object [("DataValues", .string "broken")])

/-- An entry of the same spell with one number. -/
def goodEntry : String × Json :=
  ("B/Spells/AnnieQ", .object [("DataValues", .array
    [.object [("mName", .string "Damage"), ("mValues", .array [.number (.whole 80)])]])])

/-- The broken entry stands in front of the good one. -/
def brokenFirst : Bundle := ⟨[brokenEntry, goodEntry]⟩

theorem read?_goodEntry : read? goodEntry = some ⟨[⟨some "Damage", [Float.ofInt 80]⟩], []⟩ := rfl

theorem hidesReadable_brokenFirst : brokenFirst.HidesReadable "AnnieQ" :=
  ⟨[], brokenEntry, [goodEntry], rfl, nofun, by decide +kernel, rfl, goodEntry,
    List.mem_singleton.2 rfl, by decide +kernel, read?_goodEntry ▸ nofun⟩

theorem findSpell?_firstReadable_brokenFirst :
    "AnnieQ" ≠ "" ∧ brokenFirst.HidesReadable "AnnieQ" ∧
      brokenFirst.findSpell? "AnnieQ" = none ∧ brokenFirst.firstReadable? "AnnieQ" ≠ none :=
  ⟨by decide, hidesReadable_brokenFirst,
    (findSpell?_firstReadable brokenFirst (by decide)).2.1 hidesReadable_brokenFirst⟩

/-- An entry that cannot be read hides a later one of the same script name. -/
theorem exists_hidden_entry :
    ¬ ∀ (b : Bundle) (script : String), script ≠ "" →
      b.findSpell? script = b.firstReadable? script := by
  intro h
  obtain ⟨hnone, hsome⟩ := (hidesReadable_iff (by decide)).1 hidesReadable_brokenFirst
  exact hsome ((h brokenFirst "AnnieQ" (by decide)).symm.trans hnone)

end SpellText.Bundle
