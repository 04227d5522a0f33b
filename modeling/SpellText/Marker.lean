/-!
# Markers

A marker is a placeholder in double braces, with at least one character between
them and no brace among those. `Piece.ofChars` cuts a text into markers and the
single characters around them, from left to right. The pieces make up the text
again (`Piece.flatMap_chars_ofChars`).
-/

namespace SpellText

/-- A piece of a text. -/
inductive Piece
  /-- A character that belongs to no marker. -/
  | literal (c : Char)
  /-- A marker with the text between its braces. -/
  | marker (inner : List Char)
  deriving DecidableEq, Repr

namespace Piece

/-- A curly brace. -/
def isBrace (c : Char) : Bool := c == '\x7b' || c == '\x7d'

/-- The marker that a text begins with, and the text behind it. -/
def marker? : List Char → Option (List Char × List Char)
  | '\x7b' :: '\x7b' :: s =>
    match s.dropWhile (!isBrace ·) with
    | '\x7d' :: '\x7d' :: rest =>
      if s.takeWhile (!isBrace ·) = [] then none else some (s.takeWhile (!isBrace ·), rest)
    | _ => none
  | _ => none

/-- A marker takes characters off the text. -/
theorem length_marker {s inner rest : List Char} (h : marker? s = some (inner, rest)) :
    rest.length < s.length := by
  unfold marker? at h
  split at h
  · next t =>
    split at h
    · next rest' heq =>
      split at h
      · cases h
      · cases h
        have hd : (t.dropWhile (!isBrace ·)).length ≤ t.length :=
          (List.dropWhile_sublist _).length_le
        rw [heq] at hd
        simp only [List.length_cons] at hd ⊢
        omega
    · cases h
  · cases h

/-- The pieces of a text. -/
def ofChars : List Char → List Piece
  | [] => []
  | c :: s =>
    match _h : marker? (c :: s) with
    | some (inner, rest) => .marker inner :: ofChars rest
    | none => .literal c :: ofChars s
termination_by s => s.length
decreasing_by
  · exact length_marker _h
  · simp

/-- The text of a piece. -/
def chars : Piece → List Char
  | literal c => [c]
  | marker inner => '\x7b' :: '\x7b' :: inner ++ ['\x7d', '\x7d']

/-- What is cut off as a marker and what follows make up the text. -/
theorem eq_of_marker {s inner rest : List Char} (h : marker? s = some (inner, rest)) :
    s = (marker inner).chars ++ rest ∧ inner ≠ [] ∧ ∀ c ∈ inner, isBrace c = false := by
  unfold marker? at h
  split at h
  · next t =>
    split at h
    · next rest' heq =>
      split at h
      · cases h
      · next hne =>
        cases h
        refine ⟨?_, hne, fun c hc => ?_⟩
        · have ht : t = t.takeWhile (!isBrace ·) ++ t.dropWhile (!isBrace ·) :=
            List.takeWhile_append_dropWhile.symm
          rw [heq] at ht
          simpa [chars] using ht
        · simpa using List.all_eq_true.1 (List.all_takeWhile (p := (!isBrace ·))) c hc
    · cases h
  · cases h

/-- A marker at the start of a text is its first piece. -/
theorem ofChars_of_marker {c : Char} {s inner rest : List Char}
    (h : marker? (c :: s) = some (inner, rest)) :
    ofChars (c :: s) = .marker inner :: ofChars rest := by
  rw [ofChars]
  split
  · next inner' rest' h' =>
    rw [h] at h'
    cases h'
    rfl
  · next h' => simp [h] at h'

/-- A character that begins no marker is a piece of its own. -/
theorem ofChars_of_literal {c : Char} {s : List Char} (h : marker? (c :: s) = none) :
    ofChars (c :: s) = .literal c :: ofChars s := by
  rw [ofChars]
  split
  · next h' => simp [h] at h'
  · rfl

/-- The pieces make up the text. -/
theorem flatMap_chars_ofChars (s : List Char) : (ofChars s).flatMap chars = s := by
  induction s using ofChars.induct with
  | case1 => simp [ofChars]
  | case2 c s inner rest h ih =>
    rw [ofChars_of_marker h, List.flatMap_cons, ih]
    exact (eq_of_marker h).1.symm
  | case3 c s h ih => simp [ofChars_of_literal h, ih, chars]

end Piece

end SpellText
