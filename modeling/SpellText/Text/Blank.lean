import SpellText.Text.Range

/-!
# Blank characters

The characters with the `White_Space` property, and trimming them off both ends
of a text.
-/

namespace SpellText.Text

/-- The code points with the `White_Space` property. -/
def blankRanges : List (Nat × Nat) := [
  (0x9, 0xD), (0x20, 0x20), (0x85, 0x85), (0xA0, 0xA0), (0x1680, 0x1680), (0x2000, 0x200A),
  (0x2028, 0x2029), (0x202F, 0x202F), (0x205F, 0x205F), (0x3000, 0x3000)]

/-- A blank character. -/
def isBlank (c : Char) : Bool := inRanges blankRanges c

/-- The text without the blanks at its start. -/
def trimStart (s : List Char) : List Char := s.dropWhile isBlank

/-- The text without the blanks at its end. -/
def trimEnd (s : List Char) : List Char := (s.reverse.dropWhile isBlank).reverse

/-- The text without the blanks at either end. -/
def trim (s : List Char) : List Char := trimEnd (trimStart s)

/-- The string without the blanks at either end. -/
def trimmed (s : String) : String := String.ofList (trim s.toList)

/-- What a text without blanks at its end ends with has none there either. -/
theorem trimEnd_of_suffix {t s : List Char} (h : t <:+ s) (hs : trimEnd s = s) : trimEnd t = t := by
  obtain ⟨a, rfl⟩ := h
  unfold trimEnd at *
  rw [List.reverse_eq_iff] at hs ⊢
  rw [List.reverse_append] at hs
  cases ht : t.reverse with
  | nil => rfl
  | cons c r =>
    rw [ht, List.cons_append, List.dropWhile_cons] at hs
    split at hs
    · have := congrArg List.length hs
      have := (List.dropWhile_sublist isBlank (l := r ++ a.reverse)).length_le
      simp only [List.length_cons] at *
      omega
    · next hc => rw [List.dropWhile_cons, if_neg hc]

/-- Trimming stops at what is not blank. -/
theorem trimEnd_append_cons (s : List Char) {c : Char} (hc : isBlank c = false) (t : List Char) :
    trimEnd (s ++ c :: t) = s ++ c :: trimEnd t := by
  unfold trimEnd
  rw [List.reverse_append, List.reverse_cons, List.append_assoc, List.dropWhile_append]
  cases h : t.reverse.dropWhile isBlank with
  | nil => simp [hc]
  | cons d r => simp

/-- A text is trimmed if no blanks stand at its ends. -/
theorem trim_of_ends {s : List Char} (hfirst : ∀ c ∈ s.head?, isBlank c = false)
    (hlast : ∀ c ∈ s.getLast?, isBlank c = false) : trim s = s := by
  have hstart : trimStart s = s := by
    cases s with
    | nil => rfl
    | cons c s => rw [trimStart, List.dropWhile_cons, hfirst c rfl]; rfl
  rw [trim, hstart]
  rcases List.eq_nil_or_concat s with rfl | ⟨t, c, rfl⟩
  · rfl
  · rw [List.concat_eq_append, trimEnd_append_cons t (hlast c (by simp))]
    rfl

/-- What is trimmed at its end has no blanks there. -/
theorem trimEnd_trimEnd (s : List Char) : trimEnd (trimEnd s) = trimEnd s := by
  unfold trimEnd
  rw [List.reverse_reverse]
  cases h : s.reverse.dropWhile isBlank with
  | nil => rfl
  | cons c r =>
    have hc : isBlank c = false := by
      have := List.head?_dropWhile_not isBlank s.reverse
      rwa [h] at this
    rw [List.dropWhile_cons, if_neg (by simp [hc])]

/-- Trimming the end first changes nothing. -/
theorem trim_trimEnd (s : List Char) : trim (trimEnd s) = trim s := by
  have hs : s.takeWhile isBlank ++ trimStart s = s := List.takeWhile_append_dropWhile
  have hblank : ∀ c ∈ s.takeWhile isBlank, isBlank c = true :=
    List.all_eq_true.1 List.all_takeWhile
  unfold trim
  cases h : trimStart s with
  | nil =>
    have hend : trimEnd s = [] := by
      have hall : ∀ c ∈ s.reverse, isBlank c = true := by
        intro c hc
        rw [h, List.append_nil] at hs
        rw [hs] at hblank
        exact hblank c (List.mem_reverse.1 hc)
      rw [trimEnd, List.reverse_eq_nil_iff, ← List.append_nil s.reverse,
        List.dropWhile_append_of_pos hall, List.dropWhile_nil]
    rw [hend]
    rfl
  | cons c t =>
    have hc : isBlank c = false := by
      have := List.head?_dropWhile_not isBlank s
      rwa [show s.dropWhile isBlank = c :: t from h] at this
    have hend : trimEnd s = s.takeWhile isBlank ++ c :: trimEnd t := by
      rw [← trimEnd_append_cons _ hc, ← h, hs]
    rw [hend, trimStart, List.dropWhile_append_of_pos hblank,
      List.dropWhile_cons_of_neg (by simp [hc]), ← List.nil_append (c :: trimEnd t),
      trimEnd_append_cons _ hc, trimEnd_trimEnd, ← trimEnd_append_cons _ hc, List.nil_append]

end SpellText.Text
