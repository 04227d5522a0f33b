/-!
# Splitting texts

The pieces of a text between the copies of a character.
-/

namespace SpellText.Text

/-- The pieces of a text between the copies of `separator`, also the empty ones. -/
def split (separator : Char) : List Char → List (List Char)
  | [] => [[]]
  | c :: rest =>
    if c = separator then [] :: split separator rest
    else match split separator rest with
      | [] => [[c]]
      | piece :: others => (c :: piece) :: others

/-- No piece holds the separator. -/
theorem not_mem_of_mem_split {separator : Char} {s piece : List Char}
    (h : piece ∈ split separator s) : separator ∉ piece := by
  induction s generalizing piece with
  | nil => simp_all [split]
  | cons c rest ih =>
    unfold split at h
    split at h
    · rcases List.mem_cons.1 h with rfl | h
      · simp
      · exact ih h
    · next hc =>
      split at h
      · simp_all [Ne.symm hc]
      · next first others heq =>
        rcases List.mem_cons.1 h with rfl | h
        · have := ih (heq ▸ List.mem_cons_self)
          simp [this, Ne.symm hc]
        · exact ih (heq ▸ List.mem_cons_of_mem _ h)

end SpellText.Text
