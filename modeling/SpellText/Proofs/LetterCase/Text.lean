import SpellText.Name
import SpellText.Text.Blank

/-!
# Small letters for capital letters

What becomes of texts when their ASCII letters are made small. A function of characters
that answers a capital letter as it answers the small one is `Caseless`, and whatever
is cut off by such a function is cut off at the same place. Lower-casing over the whole
of Unicode looks at neighbours to choose between the two small sigmas, but only for
letters with case, and a letter of ASCII has case in either form. So the lower case of
a text does not depend on the case of its ASCII letters (`lowercase_toLower`), and
neither do the keys of a name (`Name.Spelling.key_toLower`).
-/

namespace SpellText

namespace Text

/-! ## Characters -/

/-- A capital letter becomes the small letter in its place of the alphabet, and other
characters stay. -/
theorem toLower_cases (c : Char) :
    (∃ n < 26, c = Char.ofNat (65 + n) ∧ c.toLower = Char.ofNat (97 + n)) ∨ c.toLower = c := by
  by_cases hc : 65 ≤ c.toNat ∧ c.toNat ≤ 90
  · obtain ⟨n, hn⟩ := Nat.exists_eq_add_of_le hc.1
    have hlt : n < 26 := by omega
    have he : c = Char.ofNat (65 + n) := by rw [← hn, Char.ofNat_toNat]
    have hsmall : ∀ n < 26, (Char.ofNat (65 + n)).toLower = Char.ofNat (97 + n) := by decide
    exact .inl ⟨n, hlt, he, by rw [he, hsmall n hlt]⟩
  · exact .inr (dif_neg hc)

/-- Capital letters are answered as small ones. -/
def Caseless {α : Type} (f : Char → α) : Prop := ∀ c : Char, f c.toLower = f c

/-- Only the letters have to be looked at. -/
theorem caseless_of_letters {α : Type} {f : Char → α}
    (h : ∀ n < 26, f (Char.ofNat (97 + n)) = f (Char.ofNat (65 + n))) : Caseless f := by
  intro c
  rcases toLower_cases c with ⟨n, hn, hc, hl⟩ | hc
  · rw [hl, h n hn, ← hc]
  · rw [hc]

@[simp] theorem toLower_toLower (c : Char) : c.toLower.toLower = c.toLower :=
  caseless_of_letters (f := Char.toLower) (by decide) c

/-- No ASCII letter is a blank. -/
@[simp] theorem isBlank_toLower (c : Char) : isBlank c.toLower = isBlank c :=
  caseless_of_letters (f := isBlank) (by decide) c

@[simp] theorem isCased_toLower (c : Char) : isCased c.toLower = isCased c :=
  caseless_of_letters (f := isCased) (by decide +kernel) c

@[simp] theorem isCaseIgnorable_toLower (c : Char) :
    isCaseIgnorable c.toLower = isCaseIgnorable c :=
  caseless_of_letters (f := isCaseIgnorable) (by decide +kernel) c

@[simp] theorem lowerChar_toLower (c : Char) : lowerChar c.toLower = lowerChar c :=
  caseless_of_letters (f := lowerChar) (by decide) c

/-- Only letters change. -/
theorem toLower_of_isAlpha {c : Char} (h : c.isAlpha = false) : c.toLower = c := by
  rcases toLower_cases c with ⟨n, hn, rfl, -⟩ | hc
  · have hletter : ∀ n < 26, (Char.ofNat (65 + n)).isAlpha = true := by decide
    rw [hletter n hn] at h
    cases h
  · exact hc

/-- What is no letter does not come from a letter. -/
theorem toLower_eq_iff {c d : Char} (h : d.isAlpha = false) : c.toLower = d ↔ c = d := by
  refine ⟨fun hc => ?_, fun hc => by rw [hc, toLower_of_isAlpha h]⟩
  have halpha : c.toLower.isAlpha = c.isAlpha :=
    caseless_of_letters (f := Char.isAlpha) (by decide) c
  rw [← hc, toLower_of_isAlpha (halpha ▸ hc ▸ h)]

/-! ## Texts -/

theorem dropWhile_toLower {p : Char → Bool} (h : Caseless p) (s : List Char) :
    (s.map Char.toLower).dropWhile p = (s.dropWhile p).map Char.toLower := by
  rw [List.dropWhile_map, show p ∘ Char.toLower = p from funext h]

theorem takeWhile_toLower {p : Char → Bool} (h : Caseless p) (s : List Char) :
    (s.map Char.toLower).takeWhile p = (s.takeWhile p).map Char.toLower := by
  rw [List.takeWhile_map, show p ∘ Char.toLower = p from funext h]

/-- A sign at the start of a text stands there before letters are made small as well. -/
theorem map_toLower_eq_cons_iff {s r : List Char} {d : Char} (h : d.isAlpha = false) :
    s.map Char.toLower = d :: r ↔ ∃ t, s = d :: t ∧ t.map Char.toLower = r := by
  rw [List.map_eq_cons_iff]
  constructor
  · rintro ⟨c, t, rfl, hc, ht⟩
    exact ⟨t, by rw [(toLower_eq_iff h).1 hc], ht⟩
  · rintro ⟨t, rfl, ht⟩
    exact ⟨d, t, rfl, toLower_of_isAlpha h, ht⟩

theorem trimStart_toLower (s : List Char) :
    trimStart (s.map Char.toLower) = (trimStart s).map Char.toLower :=
  dropWhile_toLower isBlank_toLower s

theorem trimEnd_toLower (s : List Char) :
    trimEnd (s.map Char.toLower) = (trimEnd s).map Char.toLower := by
  rw [trimEnd, ← List.map_reverse, dropWhile_toLower isBlank_toLower, ← List.map_reverse, trimEnd]

theorem trim_toLower (s : List Char) : trim (s.map Char.toLower) = (trim s).map Char.toLower := by
  rw [trim, trimStart_toLower, trimEnd_toLower, trim]

theorem toList_toLower (s : String) : s.toLower.toList = s.toList.map Char.toLower :=
  String.toList_map

theorem ofList_toLower (s : List Char) :
    String.ofList (s.map Char.toLower) = (String.ofList s).toLower :=
  String.toList_inj.1 (by rw [toList_toLower, String.toList_ofList, String.toList_ofList])

theorem trimmed_toLower (s : String) : trimmed s.toLower = (trimmed s).toLower := by
  rw [trimmed, toList_toLower, trim_toLower, ofList_toLower, trimmed]

/-- Texts have the same letters if they are the same in ASCII lower case. -/
theorem sameLetters_iff {s t : List Char} :
    sameLetters s t = true ↔ s.map Char.toLower = t.map Char.toLower := by
  rw [sameLetters, beq_iff_eq]

theorem sameLetters_toLower (s t : List Char) :
    sameLetters (s.map Char.toLower) t = sameLetters s t := by
  rw [sameLetters, List.map_map, show Char.toLower ∘ Char.toLower = Char.toLower from
    funext toLower_toLower, sameLetters]

/-! ## Lower case -/

/-- Whether a cased letter comes next does not depend on ASCII case. -/
theorem meetsCased_toLower (s : List Char) : meetsCased (s.map Char.toLower) = meetsCased s := by
  rw [meetsCased, meetsCased, dropWhile_toLower isCaseIgnorable_toLower]
  cases s.dropWhile isCaseIgnorable with
  | nil => rfl
  | cons c _ => exact isCased_toLower c

/-- The form of a sigma does not depend on the ASCII case around it. -/
theorem smallSigma_toLower (before after : List Char) :
    smallSigma (before.map Char.toLower) (after.map Char.toLower) = smallSigma before after := by
  rw [smallSigma, meetsCased_toLower, meetsCased_toLower, smallSigma]

/-- ASCII lower case makes no difference to full lower case. -/
theorem lowercaseAfter_toLower (before s : List Char) :
    lowercaseAfter (before.map Char.toLower) (s.map Char.toLower) = lowercaseAfter before s := by
  induction s generalizing before with
  | nil => rfl
  | cons c rest ih =>
    have hσ : c.toLower = capitalSigma ↔ c = capitalSigma := toLower_eq_iff (by decide)
    rw [List.map_cons, lowercaseAfter, lowercaseAfter, smallSigma_toLower, lowerChar_toLower,
      ← List.map_cons, ih]
    simp only [hσ]

/-- The lower case of a text does not depend on the case of its ASCII letters. -/
theorem lowercase_toLower (s : List Char) : lowercase (s.map Char.toLower) = lowercase s :=
  lowercaseAfter_toLower [] s

/-- A string has the same full lower case in ASCII lower case. -/
theorem lowercased_toLower (s : String) : lowercased s.toLower = lowercased s := by
  rw [lowercased, toList_toLower, lowercase_toLower, lowercased]

end Text

/-! ## Keys -/

namespace Name

theorem camelLower_toLower (s : String) : camelLower s.toLower = camelLower s := by
  rw [camelLower, camelCase, Text.toList_toLower, Text.lowercase_toLower, camelLower, camelCase]

/-- The slug does not depend on ASCII case. -/
theorem slug_toLower (s : String) : slug s.toLower = slug s := by
  rw [slug, Text.toList_toLower, Text.lowercase_toLower, slug]

/-- The keys of a name do not depend on the case of its ASCII letters. -/
theorem Spelling.key_toLower (spelling : Spelling) (s : String) :
    spelling.key s.toLower = spelling.key s := by
  cases spelling with
  | camelLower => exact camelLower_toLower s
  | alphanumeric => exact slug_toLower s
  | rawLower => exact Text.lowercased_toLower s

end Name

end SpellText
