import SpellText.Proofs.Lookups

/-!
# Spellings of a reference

A reference is tried as a camel-cased name in lower case, as its small letters and digits, and
as it stands. Camel-casing splits the lower case of a name at its separators, capitalizes the
runs between them and joins them (`Name.camelCase_eq_runs`). In lower case again the capitals
are gone, and what is left are the letters and digits (`Name.camelLower_eq_slug`).

So the first two spellings are one, and a key that came of it stays as it is in either
(`Name.slug_of_isSlug`). `Champion.two_spellings` puts this together with what it means for
references : an ability is looked up by at most two keys.
-/

namespace SpellText

open Text (lowercased lowercase)

namespace Name

/-! ## Runs -/

/-- The run with a capital first letter. -/
def capitalized : List Char → List Char
  | [] => []
  | c :: rest => c.toUpper :: rest

/-- The runs of key characters between separators. -/
def runs (s : List Char) : List (List Char) :=
  (s.splitOnP fun c => !isKeyChar c).filter (!·.isEmpty)

/-- The first piece of a text is capitalized only if it begins a run; the others do. -/
theorem capitalizeRuns_of_pieces {s piece : List Char} {pieces : List (List Char)}
    (h : s.splitOnP (fun c => !isKeyChar c) = piece :: pieces) :
    capitalizeRuns true s = capitalized piece ++ pieces.flatMap capitalized ∧
      capitalizeRuns false s = piece ++ pieces.flatMap capitalized := by
  induction s generalizing piece pieces with
  | nil =>
    cases h
    exact ⟨rfl, rfl⟩
  | cons c s ih =>
    obtain ⟨next, others, hs⟩ := List.exists_cons_of_ne_nil
      (List.splitOnP_ne_nil (fun c => !isKeyChar c) s)
    obtain ⟨htrue, hfalse⟩ := ih hs
    rw [List.splitOnP_cons_eq_if_modifyHead, hs] at h
    cases hc : isKeyChar c with
    | true =>
      simp only [hc, Bool.not_true, Bool.false_eq_true, if_false, List.modifyHead_cons] at h
      cases h
      simp [capitalizeRuns, hc, hfalse, capitalized]
    | false =>
      simp only [hc, Bool.not_false, if_true] at h
      cases h
      simp [capitalizeRuns, hc, htrue, capitalized]

/-- Pieces without characters add nothing. -/
theorem flatMap_capitalized_runs (s : List Char) : (runs s).flatMap capitalized
    = (s.splitOnP fun c => !isKeyChar c).flatMap capitalized := by
  rw [runs]
  induction s.splitOnP fun c => !isKeyChar c with
  | nil => rfl
  | cons piece pieces ih =>
    cases piece with
    | nil => exact ih
    | cons c rest => exact congrArg (capitalized (c :: rest) ++ ·) ih

/-- Camel-casing capitalizes the runs between separators and joins them. -/
theorem camelCase_eq_runs (name : String) : camelCase name
    = String.ofList ((runs (lowercase name.toList)).flatMap capitalized) := by
  obtain ⟨piece, pieces, hs⟩ := List.exists_cons_of_ne_nil
    (List.splitOnP_ne_nil (fun c => !isKeyChar c) (lowercase name.toList))
  rw [camelCase, (capitalizeRuns_of_pieces hs).1, flatMap_capitalized_runs, hs,
    List.flatMap_cons]

/-! ## Keys stay -/

/-- Small letters and digits are in lower case. -/
theorem lowercased_of_isSlug {key : String} (h : IsSlug key) : lowercased key = key := by
  have hkey := List.all_eq_true.1 h
  have hascii : ∀ c ∈ key.toList, c.toNat < 128 :=
    fun c hc => (isCamel_of_isKeyChar (hkey c hc)).1.1
  have hlow : key.toList.map Char.toLower = key.toList :=
    (List.map_congr_left fun c hc => (toLower_of_isKeyChar (hkey c hc)).1).trans (List.map_id' _)
  rw [lowercased, lowercase, Text.lowercaseAfter_ascii [] hascii, hlow, String.ofList_toList]

/-- There is nothing to drop from a key. -/
theorem slug_of_isSlug {key : String} (h : IsSlug key) : slug key = key := by
  have hlow := lowercased_of_isSlug h
  rw [slug_eq_lowercased (by rwa [hlow]), hlow]

/-- Every spelling but the raw one is the slug. -/
theorem key_eq_slug {spelling : Spelling} (h : spelling ≠ .rawLower) (s : String) :
    spelling.key s = slug s := by
  cases spelling with
  | camelLower => exact camelLower_eq_slug s
  | alphanumeric => rfl
  | rawLower => exact absurd rfl h

end Name

namespace Champion

open Name (Spelling IsSlug)

/-- The camel-cased spelling of a reference and its letters and digits are the same key, made
of small letters and digits, which both spellings leave as it is. The reference therefore finds
the ability under this key, and else the one under its lower case. -/
theorem two_spellings (c : Champion) (reference : String) :
    Spelling.camelLower.key reference = Spelling.alphanumeric.key reference ∧
      (∀ p q : Spelling, p ≠ .rawLower → q ≠ .rawLower →
        IsSlug (p.key reference) ∧ q.key (p.key reference) = p.key reference) ∧
      c.findAbility? reference =
        (c.ability? (Name.slug reference)).or (c.ability? (lowercased reference)) := by
  refine ⟨Name.camelLower_eq_slug reference, fun p q hp hq => ?_, findAbility?_eq_or c reference⟩
  rw [Name.key_eq_slug hp, Name.key_eq_slug hq]
  exact ⟨Name.isSlug_slug reference, Name.slug_of_isSlug (Name.isSlug_slug reference)⟩

theorem two_spellings_orb :
    Spelling.camelLower.key "Ahri_Orb" = "ahriorb" ∧
      Spelling.alphanumeric.key (Spelling.camelLower.key "Ahri_Orb") = "ahriorb" ∧
      ((ofRecords "Ahri" orbSheet orbBundle .null).findAbility? "Ahri_Orb").map Ability.name
        = some "AhriOrb" := by
  obtain ⟨hsame, hfixed, hfind⟩ :=
    two_spellings (ofRecords "Ahri" orbSheet orbBundle .null) "Ahri_Orb"
  have hkey : Spelling.alphanumeric.key "Ahri_Orb" = "ahriorb" := by decide
  have hcamel := hsame.trans hkey
  have hability : ((ofRecords "Ahri" orbSheet orbBundle .null).ability?
      (Name.slug "Ahri_Orb")).map Ability.name = some "AhriOrb" := by decide +kernel
  obtain ⟨a, ha, hname⟩ := Option.map_eq_some_iff.1 hability
  refine ⟨hcamel, (hfixed .camelLower .alphanumeric (by decide) (by decide)).2.trans hcamel, ?_⟩
  rw [hfind, ha]
  exact congrArg some hname

end Champion

end SpellText
