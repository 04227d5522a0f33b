import SpellText.Marker

/-!
# A text and its markers

A *cutting* of a text is `l₀ m₁ l₁ … mₖ lₖ`, where the `mᵢ` are markers and no
marker lies anywhere else, neither inside of a literal stretch `lᵢ` nor across
one of its ends (`Cutting.IsOf`). Every text has exactly one :

* two cuttings of a text are equal (`Cutting.IsOf.unique`), since the first
  marker of either has to be a marker of the other;
* the pieces of `Piece.ofChars` make one (`Cutting.isOf_ofPieces`), since
  markers do not overlap : no marker begins inside of another
  (`Piece.append_of_marker`).
-/

namespace SpellText

/-- No brace stands in the text. -/
def NoBrace (s : List Char) : Prop := ∀ c ∈ s, Piece.isBrace c = false

instance (s : List Char) : Decidable (NoBrace s) :=
  decidable_of_iff ((s.all fun c => !Piece.isBrace c) = true) (by simp [NoBrace])

/-- A text that may stand between the braces of a marker. -/
def IsInner (inner : List Char) : Prop := inner ≠ [] ∧ NoBrace inner

instance (inner : List Char) : Decidable (IsInner inner) :=
  inferInstanceAs (Decidable (inner ≠ [] ∧ NoBrace inner))

namespace Piece

/-- The text begins with the marker that is written in front of it. -/
theorem marker?_append {inner : List Char} (h : IsInner inner) (rest : List Char) :
    marker? ((marker inner).chars ++ rest) = some (inner, rest) := by
  obtain ⟨hne, hb⟩ := h
  have hp : ∀ c ∈ inner, (!isBrace c) = true := by simpa [NoBrace] using hb
  have htake : (inner ++ '\x7d' :: '\x7d' :: rest).takeWhile (!isBrace ·) = inner := by
    rw [List.takeWhile_append_of_pos hp]
    simp [isBrace]
  have hdrop : (inner ++ '\x7d' :: '\x7d' :: rest).dropWhile (!isBrace ·)
      = '\x7d' :: '\x7d' :: rest := by
    rw [List.dropWhile_append_of_pos hp]
    simp [isBrace]
  have hs : (marker inner).chars ++ rest
      = '\x7b' :: '\x7b' :: (inner ++ '\x7d' :: '\x7d' :: rest) := by
    simp [chars]
  rw [hs, marker?, hdrop]
  simp only [htake, if_neg hne]

/-- What is cut off as a marker is one. -/
theorem isInner_of_marker {s inner rest : List Char} (h : marker? s = some (inner, rest)) :
    IsInner inner :=
  (eq_of_marker h).2

/-- No opening brace stands behind the first two characters of a marker. -/
theorem open_notMem {inner : List Char} (h : IsInner inner) :
    '\x7b' ∉ inner ++ ['\x7d', '\x7d'] := by
  intro hm
  rcases List.mem_append.1 hm with hm | hm
  · simpa [isBrace] using h.2 _ hm
  · simp at hm

/-- A marker that begins behind the start of another one begins behind its end. -/
theorem append_of_marker {inner inner' rest before after : List Char} (h : IsInner inner)
    (hs : (marker inner).chars ++ rest = before ++ ((marker inner').chars ++ after))
    (hne : before ≠ []) : ∃ between, before = (marker inner).chars ++ between := by
  rcases List.append_eq_append_iff.1 hs with ⟨between, hb, -⟩ | ⟨tail, hm, hx⟩
  · exact ⟨between, hb⟩
  · cases tail with
    | nil => exact ⟨[], by simpa using hm.symm⟩
    | cons c tail =>
      -- The overlap would have to begin with two opening braces.
      exfalso
      obtain ⟨b, before, rfl⟩ := List.exists_cons_of_ne_nil hne
      have hc : c = '\x7b' := by simpa [chars] using (congrArg List.head? hx).symm
      subst hc
      have hm' : '\x7b' :: (inner ++ ['\x7d', '\x7d']) = before ++ '\x7b' :: tail := by
        simpa [chars] using (List.cons.inj hm).2
      cases before with
      | cons b' before =>
        refine open_notMem h ?_
        rw [(List.cons.inj hm').2]
        simp
      | nil =>
        have htail : tail = inner ++ ['\x7d', '\x7d'] := (List.cons.inj hm').2.symm
        obtain ⟨d, inner₁, hd⟩ := List.exists_cons_of_ne_nil h.1
        have hx' : '\x7b' :: (inner' ++ '\x7d' :: '\x7d' :: after)
            = (inner ++ ['\x7d', '\x7d']) ++ rest := by
          rw [← htail]
          simpa [chars] using hx
        have hd' : d = '\x7b' := by simpa [hd] using (congrArg List.head? hx').symm
        exact open_notMem h (by simp [hd, hd'])

end Piece

/-! ## Cuttings -/

/-- A text cut at markers. -/
structure Cutting where
  /-- What stands before the first marker. -/
  head : List Char
  /-- The inner texts of the markers, each with what follows up to the next one. -/
  tail : List (List Char × List Char)

namespace Cutting

/-- The text with `f inner` in place of every marker. -/
def fill (f : List Char → List Char) (c : Cutting) : List Char :=
  c.head ++ c.tail.flatMap fun m => f m.1 ++ m.2

/-- Only the texts of the markers matter to what is filled in. -/
theorem fill_congr {f g : List Char → List Char} {c : Cutting} (h : ∀ m ∈ c.tail, f m.1 = g m.1) :
    c.fill f = c.fill g := by
  rw [fill, fill, List.flatMap_def, List.flatMap_def,
    List.map_congr_left fun m hm => by rw [h m hm]]

/-- The text that is cut. -/
def chars (c : Cutting) : List Char := c.fill fun inner => (Piece.marker inner).chars

/-- The inner texts of the markers from left to right. -/
def inners (c : Cutting) : List (List Char) := c.tail.map Prod.fst

/-- The cutting makes up the text `s`, and every marker in `s` is one of its
markers, in the same place. -/
structure IsOf (c : Cutting) (s : List Char) : Prop where
  chars : c.chars = s
  inner : ∀ inner ∈ c.inners, IsInner inner
  only : ∀ before inner after, IsInner inner →
    s = before ++ ((Piece.marker inner).chars ++ after) →
      ∃ pre lit post, c.tail = pre ++ (inner, lit) :: post ∧ before = (Cutting.mk c.head pre).chars

theorem chars_nil (l : List Char) : (Cutting.mk l []).chars = l := by
  simp [chars, fill]

/-- A cutting reads as its first literal, its first marker and the rest. -/
theorem chars_cons (l inner l' : List Char) (ms : List (List Char × List Char)) :
    (Cutting.mk l ((inner, l') :: ms)).chars
      = l ++ ((Piece.marker inner).chars ++ (Cutting.mk l' ms).chars) := by
  simp [chars, fill, List.append_assoc]

/-- What stands before the first marker is the start of the text. -/
theorem length_head_le (c : Cutting) : c.head.length ≤ c.chars.length := by
  simp [chars, fill]

/-! ## One cutting at most -/

/-- Behind the first marker a cutting goes on as a cutting of the rest. -/
theorem IsOf.behind {l inner l' s : List Char} {ms : List (List Char × List Char)}
    (h : (Cutting.mk l ((inner, l') :: ms)).IsOf s) :
    (Cutting.mk l' ms).IsOf (Cutting.mk l' ms).chars where
  chars := rfl
  inner i hi := h.inner i (List.mem_cons_of_mem _ hi)
  only before inner₁ after hi hs := by
    have hs' : s = l ++ ((Piece.marker inner).chars ++ before)
        ++ ((Piece.marker inner₁).chars ++ after) := by
      rw [← h.chars, chars_cons, hs]
      simp [List.append_assoc]
    obtain ⟨pre, lit, post, hms, hb⟩ := h.only _ inner₁ after hi hs'
    cases pre with
    | nil =>
      rw [chars_nil] at hb
      have := congrArg List.length hb
      simp [Piece.chars] at this
    | cons m pre =>
      obtain ⟨rfl, hms'⟩ := List.cons.inj hms
      refine ⟨pre, lit, post, hms', ?_⟩
      rw [chars_cons] at hb
      exact List.append_cancel_left (List.append_cancel_left hb)

/-- The first marker of one cutting of a text is also that of another. -/
theorem IsOf.exists_first {l inner l' s : List Char} {ms : List (List Char × List Char)}
    {c : Cutting}
    (h : (Cutting.mk l ((inner, l') :: ms)).IsOf s) (hc : c.IsOf s) :
    ∃ pre lit post, c.tail = pre ++ (inner, lit) :: post ∧ l = (Cutting.mk c.head pre).chars :=
  hc.only l inner (Cutting.mk l' ms).chars (h.inner inner List.mem_cons_self)
    (by rw [← h.chars, chars_cons])

/-- A text has one cutting, by induction on its markers. -/
theorem IsOf.unique_of_tail : ∀ {ms : List (List Char × List Char)} {l s : List Char} {c : Cutting},
    (Cutting.mk l ms).IsOf s → c.IsOf s → Cutting.mk l ms = c
  | [], _, _, ⟨l', []⟩, h, h' => by
    have := h.chars.trans h'.chars.symm
    rw [chars_nil, chars_nil] at this
    rw [this]
  | [], _, _, ⟨l', (inner', r') :: ms'⟩, h, h' => by
    obtain ⟨pre, lit, post, hms, -⟩ := h'.exists_first h
    simp at hms
  | (inner, r) :: ms, l, _, c, h, h' => by
    obtain ⟨pre, lit, post, hms, hl⟩ := h.exists_first h'
    obtain ⟨l', ms'⟩ := c
    subst hms
    cases pre with
    | nil =>
      obtain rfl : l = l' := by rw [hl, chars_nil]
      have hr : (Cutting.mk r ms).chars = (Cutting.mk lit post).chars := by
        have := h.chars.trans h'.chars.symm
        rw [List.nil_append, chars_cons, chars_cons] at this
        exact List.append_cancel_left (List.append_cancel_left this)
      have := unique_of_tail h.behind (hr ▸ IsOf.behind h')
      cases this
      rfl
    | cons m pre =>
      -- The first marker of `c` would stand before the first one.
      obtain ⟨pre', lit', post', -, hl'⟩ := IsOf.exists_first (c := ⟨l, (inner, r) :: ms⟩) h' h
      have h₁ := congrArg List.length hl
      have h₂ := congrArg List.length hl'
      have h₃ := length_head_le ⟨l, pre'⟩
      rw [chars_cons] at h₁
      simp [Piece.chars] at h₁ h₂ h₃
      omega

/-- A text has at most one cutting. -/
theorem IsOf.unique {c c' : Cutting} {s : List Char} (h : c.IsOf s) (h' : c'.IsOf s) : c = c' :=
  unique_of_tail h h'

/-! ## The cutting of the pieces -/

/-- The cutting that a list of pieces makes. -/
def ofPieces : List Piece → Cutting
  | [] => ⟨[], []⟩
  | .literal c :: ps => ⟨c :: (ofPieces ps).head, (ofPieces ps).tail⟩
  | .marker inner :: ps => ⟨[], (inner, (ofPieces ps).head) :: (ofPieces ps).tail⟩

/-- Filling in a cutting is filling in its pieces. -/
theorem fill_ofPieces (f : List Char → List Char) : ∀ ps : List Piece,
    (ofPieces ps).fill f = ps.flatMap fun
      | .literal c => [c]
      | .marker inner => f inner
  | [] => rfl
  | .literal c :: ps => by
    have ih := fill_ofPieces f ps
    simp only [fill] at ih
    simp [ofPieces, fill, ih]
  | .marker inner :: ps => by
    have ih := fill_ofPieces f ps
    simp only [fill] at ih
    simp [ofPieces, fill, ih]

/-- One more character in front. -/
theorem isOf_literal {c : Char} {s : List Char} {k : Cutting} (h : k.IsOf s)
    (hc : Piece.marker? (c :: s) = none) : (Cutting.mk (c :: k.head) k.tail).IsOf (c :: s) where
  chars := by
    rw [← h.chars]
    rfl
  inner := h.inner
  only before inner after hi hs := by
    cases before with
    | nil =>
      rw [List.nil_append] at hs
      rw [hs, Piece.marker?_append hi] at hc
      cases hc
    | cons b before =>
      obtain ⟨rfl, hs'⟩ := List.cons.inj hs
      obtain ⟨pre, lit, post, ht, hb⟩ := h.only before inner after hi hs'
      exact ⟨pre, lit, post, ht, by rw [hb]; rfl⟩

/-- One more marker in front. -/
theorem isOf_marker {inner s : List Char} {k : Cutting} (h : k.IsOf s) (hi : IsInner inner) :
    (Cutting.mk [] ((inner, k.head) :: k.tail)).IsOf ((Piece.marker inner).chars ++ s) where
  chars := by rw [chars_cons, ← h.chars, List.nil_append]
  inner i hm := by
    rcases List.mem_cons.1 hm with rfl | hm
    · exact hi
    · exact h.inner i hm
  only before inner' after hi' hs := by
    by_cases hb : before = []
    · subst hb
      have hm := Piece.marker?_append hi s
      rw [hs, List.nil_append, Piece.marker?_append hi'] at hm
      obtain ⟨rfl, rfl⟩ := Prod.mk.inj (Option.some.inj hm)
      exact ⟨[], k.head, k.tail, rfl, (chars_nil _).symm⟩
    · obtain ⟨between, rfl⟩ := Piece.append_of_marker hi hs hb
      rw [List.append_assoc] at hs
      obtain ⟨pre, lit, post, ht, hb'⟩ :=
        h.only between inner' after hi' (List.append_cancel_left hs)
      refine ⟨(inner, k.head) :: pre, lit, post, by rw [ht]; rfl, ?_⟩
      rw [chars_cons, hb', List.nil_append]

/-- The pieces of a text make a cutting of it. -/
theorem isOf_ofPieces (s : List Char) : (ofPieces (Piece.ofChars s)).IsOf s := by
  induction s using Piece.ofChars.induct with
  | case1 =>
    refine ⟨by simp [Piece.ofChars, ofPieces, chars_nil], ?_, ?_⟩
    · simp [Piece.ofChars, ofPieces, inners]
    · intro before inner after _ hs
      simp [Piece.chars] at hs
  | case2 c s inner rest h ih =>
    have hs := (Piece.eq_of_marker h).1
    rw [Piece.ofChars_of_marker h, hs]
    exact isOf_marker ih (Piece.isInner_of_marker h)
  | case3 c s h ih =>
    rw [Piece.ofChars_of_literal h]
    exact isOf_literal ih h

end Cutting

end SpellText
