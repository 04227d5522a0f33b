import SpellText.Amount.Rendering
import SpellText.Proofs.Numerals
import SpellText.Proofs.RankArithmetic
import SpellText.Text.Blank

/-!
# Reading texts of amounts back

The text of an amount says which numeral the flat part has at every rank, and which terms
show, under which labels and with which numerals (`Amount.shown`). Nothing of that is lost in
writing : `Shown.read` takes the text apart again, for amounts of a known number of ranks
whose labels have no parentheses (`Amount.read_chars`).

The text is cut at opening parentheses, a term ends at its closing one, and its first blank
parts the ranks from the label, which may have blanks of its own. Ranks are cut at slashes.
That finds the places where these characters were put between the numerals because numerals
have none of them (`Ranks.of_mem_chars`). Ranks that all read the same are drawn together to
one numeral, which is why the number of ranks has to be known.
-/

namespace SpellText

open Decimal (numeral numeralChars isNumeralChar isNumeric_numeralChars)

theorem Text.isBlank_of_isNumeralChar {c : Char} (h : isNumeralChar c = true) :
    isBlank c = false := by
  rw [isNumeralChar, Bool.or_eq_true, isDigit_iff] at h
  rcases h with h | h
  · simp only [isBlank, inRanges, blankRanges, List.any_cons, List.any_nil, Bool.or_false,
      Bool.or_eq_false_iff, Bool.and_eq_false_iff, decide_eq_false_iff_not]
    omega
  · simp only [List.contains_cons, List.contains_nil, Bool.or_false, Bool.or_eq_true,
      beq_iff_eq] at h
    rcases h with rfl | rfl | rfl | rfl | rfl | rfl | rfl <;> decide

/-! ## Ranks -/

namespace Ranks

variable {n : Nat} {cs : List Float}

/-- The numerals of `n` ranks. -/
def numerals (n : Nat) (cs : List Float) : List (List Char) :=
  (List.range n).map fun j => numeralChars (atRank cs j)

theorem map_extend (h : cs.length ≤ n) : (extend n cs).map numeralChars = numerals n cs := by
  have hlen : (extend n cs).length = n := (length_extend n cs).trans (Nat.max_eq_left h)
  refine List.ext_getElem (by simp [numerals, hlen]) fun j hj hj' => ?_
  rw [List.length_map] at hj
  have hrank : (extend n cs)[j] = atRank cs j := by
    rw [← atRank_extend n cs j, atRank, List.getElem?_eq_getElem hj, Option.getD_some]
  simp only [List.getElem_map, hrank, numerals, List.getElem_range]

/-- Ranks are written alike if they are at each rank. -/
theorem numerals_eq_iff {ds : List Float} : numerals n cs = numerals n ds ↔
    ∀ j < n, numeral (atRank cs j) = numeral (atRank ds j) := by
  simp only [numerals, List.map_inj_left, List.mem_range, numeral, String.ofList_inj]

/-- The ranks that are written as `s`, of which there are `n`. -/
def readRow (n : Nat) (s : List Char) : List (List Char) :=
  match s.splitOn '/' with
  | [all] => List.replicate n all
  | row => row

theorem joined_eq_intercalate (separator : Char) :
    ∀ ss : List (List Char), joined separator ss = [separator].intercalate ss
  | [] => List.intercalate_nil.symm
  | [_] => List.intercalate_singleton.symm
  | s :: t :: ss => by
    rw [List.intercalate_cons_cons, ← joined_eq_intercalate, List.append_assoc]
    rfl

theorem readRow_of_notMem {s : List Char} (h : '/' ∉ s) : readRow n s = List.replicate n s := by
  rw [readRow, List.splitOn_eq_singleton h]

/-- Numerals between slashes are read off one by one. -/
theorem readRow_joined {s t : List Char} {ss : List (List Char)}
    (h : ∀ u ∈ s :: t :: ss, '/' ∉ u) : readRow n (joined '/' (s :: t :: ss)) = s :: t :: ss := by
  rw [readRow, joined_eq_intercalate, List.splitOn_intercalate '/' h (List.cons_ne_nil _ _)]

/-- A row of ranks is read back numeral by numeral. -/
theorem readRow_chars (h : cs ≠ []) : readRow cs.length (chars cs) = cs.map numeralChars := by
  have hslash : ∀ s ∈ cs.map numeralChars, '/' ∉ s := by
    intro s hs
    obtain ⟨x, -, rfl⟩ := List.mem_map.1 hs
    exact (isNumeric_numeralChars x).notMem (by decide)
  obtain ⟨x, xs, rfl⟩ := List.exists_cons_of_ne_nil h
  by_cases hall : ((xs.map numeralChars).all (· == numeralChars x)) = true
  · have hchars : chars (x :: xs) = numeralChars x := if_pos hall
    rw [hchars, readRow_of_notMem (hslash _ List.mem_cons_self), ← List.length_map numeralChars]
    refine (List.eq_replicate_of_mem fun s hs => ?_).symm
    rcases List.mem_cons.1 hs with rfl | hs
    · rfl
    · exact eq_of_beq (List.all_eq_true.1 hall s hs)
  · have hchars : chars (x :: xs) = joined '/' ((x :: xs).map numeralChars) := if_neg hall
    rw [hchars]
    cases xs with
    | nil => exact absurd rfl hall
    | cons y ys => exact readRow_joined hslash

theorem joined_ne_nil (separator : Char) {s : List Char} (h : s ≠ []) (ss : List (List Char)) :
    joined separator (s :: ss) ≠ [] := by
  cases ss with
  | nil => exact h
  | cons t ss => exact List.append_ne_nil_of_left_ne_nil h _

theorem chars_ne_nil (cs : List Float) : chars cs ≠ [] := by
  cases cs with
  | nil => exact List.cons_ne_nil _ _
  | cons x xs =>
    rw [chars, List.map_cons]
    dsimp only
    split
    · exact Decimal.numeralChars_ne_nil x
    · exact joined_ne_nil '/' (Decimal.numeralChars_ne_nil x) _

theorem isBlank_of_mem_chars {c : Char} (h : c ∈ chars cs) : Text.isBlank c = false := by
  rcases of_mem_chars h with rfl | h
  · decide
  · exact Text.isBlank_of_isNumeralChar h

/-- Filling up makes no term show, and hides none. -/
theorem exists_mem_extend_iff :
    (∃ x ∈ extend n cs, ¬ x.abs < negligible) ↔ ∃ x ∈ cs, ¬ x.abs < negligible := by
  constructor
  · rintro ⟨x, hx, hlarge⟩
    rcases List.mem_append.1 hx with hx | hx
    · exact ⟨x, hx, hlarge⟩
    · obtain rfl := List.eq_of_mem_replicate hx
      cases hl : cs.getLast? with
      | none =>
        rw [last, hl] at hlarge
        exact absurd (by decide) hlarge
      | some y =>
        rw [last, hl] at hlarge
        exact ⟨y, List.mem_of_getLast? hl, hlarge⟩
  · rintro ⟨x, hx, hlarge⟩
    exact ⟨x, List.mem_append_left _ hx, hlarge⟩

theorem areNegligible_eq_true_iff : areNegligible cs = true ↔ ¬ ∃ x ∈ cs, ¬ x.abs < negligible := by
  simp [areNegligible]

/-! ### Rows of numerals -/

/-- The text of ranks with the given numerals. -/
def row : List (List Char) → List Char
  | [] => ['0']
  | first :: rest => if rest.all (· == first) then first else joined '/' (first :: rest)

/-- Ranks are written as the row of their numerals. -/
theorem chars_eq_row (cs : List Float) : chars cs = row (cs.map numeralChars) := rfl

/-- The numerals are those of `n` numbers. -/
def IsRow (n : Nat) (ss : List (List Char)) : Prop :=
  ∃ cs : List Float, cs.length = n ∧ ss = cs.map numeralChars

/-- The numerals of ranks are a row that can be read back. -/
theorem isRow_numerals (n : Nat) (cs : List Float) : IsRow n (numerals n cs) :=
  ⟨(List.range n).map (atRank cs), by simp, by rw [List.map_map]; rfl⟩

/-- A row is read back. -/
theorem IsRow.readRow {ss : List (List Char)} (h : IsRow n ss) (hn : n ≠ 0) :
    readRow n (row ss) = ss := by
  obtain ⟨cs, rfl, rfl⟩ := h
  exact readRow_chars (List.ne_nil_of_length_pos (Nat.pos_of_ne_zero hn))

/-- A character that is neither a slash nor one of numerals is not in a row. -/
theorem IsRow.notMem {ss : List (List Char)} (h : IsRow n ss) {c : Char} (hslash : c ≠ '/')
    (hc : isNumeralChar c = false) : c ∉ row ss := by
  obtain ⟨cs, -, rfl⟩ := h
  exact fun hmem => (of_mem_chars hmem).elim hslash fun h' => Bool.false_ne_true (hc.symm.trans h')

end Ranks

/-! ## What a text says -/

/-- The numerals of the flat part by rank, and those of the terms that show, by label. -/
structure Shown where
  flat : List (List Char)
  terms : List (String × List (List Char))

namespace Shown

open Ranks (IsRow row readRow)

variable {n : Nat}

/-! ### Writing -/

/-- The sign that is written in front of a row. -/
def sign (s : List Char) : List Char := if s.head? == some '-' then [] else ['+']

/-- What stands between the parentheses of a term. -/
def inner (term : String × List (List Char)) : List Char :=
  sign (row term.2) ++ row term.2 ++ ' ' :: term.1.toList

/-- The text of a term. -/
def termChars (term : String × List (List Char)) : List Char :=
  ' ' :: '(' :: (inner term ++ [')'])

/-- The text that says this. -/
def chars (s : Shown) : List Char := row s.flat ++ s.terms.flatMap termChars

/-! ### Reading -/

/-- The text without a plus sign in front. -/
def withoutPlus : List Char → List Char
  | '+' :: s => s
  | s => s

/-- The term behind an opening parenthesis. -/
def readTerm (n : Nat) (s : List Char) : String × List (List Char) :=
  let inner := s.takeWhile (· != ')')
  (String.ofList (inner.dropWhile (· != ' ')).tail,
    readRow n (withoutPlus (inner.takeWhile (· != ' '))))

/-- What the text `s` of an amount with `n` ranks says. -/
def read (n : Nat) (s : List Char) : Shown :=
  let pieces := s.splitOn '('
  ⟨readRow n (pieces.headI.takeWhile (· != ' ')), pieces.tail.map (readTerm n)⟩

/-! ### Reading what was written -/

/-- The label has no parentheses, and the numerals are those of `n` numbers. -/
structure IsTerm (n : Nat) (term : String × List (List Char)) : Prop where
  isRow : IsRow n term.2
  opening : '(' ∉ term.1.toList
  closing : ')' ∉ term.1.toList

theorem withoutPlus_sign {s : List Char} (h : '+' ∉ s) : withoutPlus (sign s ++ s) = s := by
  unfold sign
  split
  · next hhead =>
    obtain ⟨t, rfl⟩ : ∃ t, s = '-' :: t := List.head?_eq_some_iff.1 (eq_of_beq hhead)
    rfl
  · rfl

theorem notMem_sign {c : Char} (h : c ≠ '+') (s : List Char) : c ∉ sign s := by
  unfold sign
  split
  · exact List.not_mem_nil
  · exact fun hc => h (List.mem_singleton.1 hc)

/-- In a term only the label can have other characters than those of signed rows. -/
theorem IsTerm.notMem_inner {term : String × List (List Char)} (h : IsTerm n term) {c : Char}
    (hsep : c ∉ ['+', '/', ' ']) (hc : isNumeralChar c = false) (hlabel : c ∉ term.1.toList) :
    c ∉ inner term := by
  simp only [List.mem_cons, List.not_mem_nil, not_or] at hsep
  obtain ⟨hplus, hslash, hblank, -⟩ := hsep
  exact List.not_mem_append (List.not_mem_append (notMem_sign hplus _) (h.isRow.notMem hslash hc))
    (List.not_mem_cons_of_ne_of_not_mem hblank hlabel)

/-- Up to a character, a text is what stands in front of its first copy. -/
theorem takeWhile_append_cons {c : Char} {s : List Char} (h : c ∉ s) (t : List Char) :
    (s ++ c :: t).takeWhile (· != c) = s :=
  Decimal.takeWhile_append_of_head (fun _ hd => bne_iff_ne.2 fun he => h (he ▸ hd)) (by simp)

theorem dropWhile_append_cons {c : Char} {s : List Char} (h : c ∉ s) (t : List Char) :
    (s ++ c :: t).dropWhile (· != c) = c :: t :=
  Decimal.dropWhile_append_of_head (fun _ hd => bne_iff_ne.2 fun he => h (he ▸ hd)) (by simp)

/-- A term is read back, whatever stands behind its closing parenthesis. -/
theorem IsTerm.readTerm {term : String × List (List Char)} (h : IsTerm n term) (hn : n ≠ 0)
    (rest : List Char) : readTerm n (inner term ++ ')' :: rest) = term := by
  have hclosing := h.notMem_inner (by decide) (by decide) h.closing
  have hblank : ' ' ∉ sign (row term.2) ++ row term.2 :=
    List.not_mem_append (notMem_sign (by decide) _) (h.isRow.notMem (by decide) (by decide))
  rw [Shown.readTerm, takeWhile_append_cons hclosing, inner, takeWhile_append_cons hblank,
    dropWhile_append_cons hblank, withoutPlus_sign (h.isRow.notMem (by decide) (by decide)),
    h.isRow.readRow hn, List.tail_cons, String.ofList_toList]

/-- Cut at opening parentheses, a text falls apart into what stands in front of its terms, the
blank behind that, and a piece for every term. -/
theorem exists_pieces (hn : n ≠ 0) :
    ∀ {terms : List (String × List (List Char))} {front : List Char}, '(' ∉ front →
      (∀ term ∈ terms, IsTerm n term) →
      ∃ blank pieces,
        (front ++ terms.flatMap termChars).splitOn '(' = (front ++ blank) :: pieces ∧
          (∀ c ∈ blank, c = ' ') ∧ pieces.map (readTerm n) = terms
  | [], front, hfront, _ => by
    refine ⟨[], [], ?_, nofun, rfl⟩
    rw [List.flatMap_nil, List.append_nil, List.splitOn_eq_singleton hfront]
  | term :: terms, front, hfront, h => by
    obtain ⟨hterm, hterms⟩ := List.forall_mem_cons.1 h
    -- The text up to the closing parenthesis stands in front of the other terms.
    have hinner : '(' ∉ inner term ++ [')'] :=
      List.not_mem_append (hterm.notMem_inner (by decide) (by decide) hterm.opening) (by decide)
    obtain ⟨blank, pieces, hsplit, -, hpieces⟩ := exists_pieces hn hinner hterms
    refine ⟨[' '], (inner term ++ [')'] ++ blank) :: pieces, ?_, fun _ => List.mem_singleton.1, ?_⟩
    · rw [← hsplit, ← List.splitOn_append_cons_self_of_not_mem
        (List.not_mem_append hfront (by decide : '(' ∉ [' ']))]
      simp [termChars]
    · rw [List.map_cons, hpieces, List.append_assoc, List.singleton_append, hterm.readTerm hn]

/-- What is shown is read back from its text. -/
theorem read_chars {s : Shown} (hn : n ≠ 0) (hflat : IsRow n s.flat)
    (hterms : ∀ term ∈ s.terms, IsTerm n term) : read n s.chars = s := by
  obtain ⟨blank, pieces, hsplit, hend, hpieces⟩ :=
    exists_pieces hn (hflat.notMem (by decide) (by decide)) hterms
  have hblank : ' ' ∉ row s.flat := hflat.notMem (by decide) (by decide)
  have htake : (row s.flat ++ blank).takeWhile (· != ' ') = row s.flat :=
    Decimal.takeWhile_append_of_head (fun c hc => bne_iff_ne.2 fun he => hblank (he ▸ hc))
      fun c hc => by simp [hend c (List.mem_of_mem_head? hc)]
  rw [read, chars, hsplit, List.headI_cons, List.tail_cons, htake, hflat.readRow hn, hpieces]

end Shown

/-! ## Amounts -/

namespace Amount

open Ranks (atRank extend numerals)

/-- The term scales with something and has a coefficient that is not negligible. -/
def Shows (e : String × List Float) : Prop :=
  e.1 ≠ flatLabel ∧ ∃ x ∈ e.2, ¬ x.abs < Ranks.negligible

instance : DecidablePred Shows := fun _ => instDecidableAnd

/-- What the text of an amount is to say. -/
def shown (a : Amount) : Shown where
  flat := numerals a.length (a.flat?.getD [])
  terms := (a.terms.entries.filter Shows).map fun e => (e.1, numerals a.length e.2)

/-- No label has parentheses. -/
def HasPlainLabels (a : Amount) : Prop :=
  ∀ label ∈ a.labels, '(' ∉ label.toList ∧ ')' ∉ label.toList

/-! ### Writing -/

/-- A term that shows is written with its row and its label. -/
theorem termChars_of_shows {e : String × List Float} (h : Shows e) :
    termChars e.1 e.2 = Shown.termChars (e.1, e.2.map numeralChars) := by
  have hno : ¬ (e.1 == flatLabel || Ranks.areNegligible e.2) = true := by
    rw [Bool.or_eq_true, beq_iff_eq, Ranks.areNegligible_eq_true_iff]
    exact fun h' => h'.elim h.1 (absurd h.2)
  rw [termChars, if_neg hno]
  rfl

/-- Nothing is written for a term that does not show. -/
theorem termChars_of_not_shows {e : String × List Float} (h : ¬ Shows e) :
    termChars e.1 e.2 = [] := by
  rw [termChars, if_pos]
  rw [Bool.or_eq_true, beq_iff_eq, Ranks.areNegligible_eq_true_iff]
  by_cases hlabel : e.1 = flatLabel
  · exact .inl hlabel
  · exact .inr fun hlarge => h ⟨hlabel, hlarge⟩

/-- Only the terms that show are written. -/
theorem flatMap_termChars (es : List (String × List Float)) :
    (es.flatMap fun e => termChars e.1 e.2)
      = ((es.filter Shows).map fun e => (e.1, e.2.map numeralChars)).flatMap Shown.termChars := by
  induction es with
  | nil => rfl
  | cons e es ih =>
    rw [List.flatMap_cons, ih, List.filter_cons]
    by_cases h : Shows e
    · rw [termChars_of_shows h, if_pos (decide_eq_true h)]
      rfl
    · rw [termChars_of_not_shows h, if_neg (by simpa using h)]
      rfl

theorem flat?_padded (a : Amount) : a.padded.flat?.getD (List.replicate a.padded.length 0.0)
    = extend a.length (a.flat?.getD []) := by
  rw [flat?, flat?, length_padded]
  cases h : a.term? flatLabel with
  | none =>
    have hp : a.padded.term? flatLabel = none := by rw [padded, term?_mapTerms, h]; rfl
    rw [hp]
    exact (List.nil_append _).symm
  | some cs => rw [term?_padded h]; rfl

theorem length_flat_le (a : Amount) : (a.flat?.getD []).length ≤ a.length :=
  lengthAt_le_length a flatLabel

/-- The terms that show are the same when all are filled up. -/
theorem shown_terms_padded (a : Amount) :
    (a.padded.terms.entries.filter Shows).map (fun e => (e.1, e.2.map numeralChars))
      = a.shown.terms := by
  have hentries : a.padded.terms.entries
      = a.terms.entries.map fun e => (e.1, extend a.length e.2) := rfl
  have hshows : (fun b => decide (Shows b)) ∘ (fun e => (e.1, extend a.length e.2))
      = fun e : String × List Float => decide (Shows e) := by
    funext e
    exact decide_eq_decide.2 (and_congr_right fun _ => Ranks.exists_mem_extend_iff)
  rw [hentries, List.filter_map, hshows, List.map_map]
  refine List.map_congr_left fun e he => Prod.ext rfl (Ranks.map_extend ?_)
  rw [← lengthAt_of_term? (Table.get?_eq_some_iff.2 (List.mem_of_mem_filter he))]
  exact lengthAt_le_length a e.1

/-- The text of an amount is that of what it shows. -/
theorem chars_eq_shown (a : Amount) : a.chars = a.shown.chars := by
  have hflat : Ranks.chars (extend a.length (a.flat?.getD [])) = Ranks.row a.shown.flat := by
    rw [Ranks.chars_eq_row, Ranks.map_extend (length_flat_le a), shown]
  rw [chars, flat?_padded, hflat, flatMap_termChars, shown_terms_padded, Shown.chars]

/-- No blanks stand at the ends of a text, so that trimming it would change nothing. -/
theorem trim_chars (a : Amount) : Text.trim a.chars = a.chars := by
  have hrow : Ranks.row a.shown.flat ≠ [] ∧
      ∀ c ∈ Ranks.row a.shown.flat, Text.isBlank c = false := by
    rw [shown, ← Ranks.map_extend (length_flat_le a), ← Ranks.chars_eq_row]
    exact ⟨Ranks.chars_ne_nil _, fun _ => Ranks.isBlank_of_mem_chars⟩
  rw [chars_eq_shown, Shown.chars]
  refine Text.trim_of_ends (fun c hc => ?_) fun c hc => ?_
  · rw [List.head?_append_of_ne_nil _ hrow.1] at hc
    exact hrow.2 c (List.mem_of_mem_head? hc)
  · rcases List.eq_nil_or_concat a.shown.terms with hnil | ⟨terms, term, hconcat⟩
    · rw [hnil, List.flatMap_nil, List.append_nil] at hc
      exact hrow.2 c (List.mem_of_mem_getLast? hc)
    · -- The last term ends with its closing parenthesis.
      have hlast : (Ranks.row a.shown.flat ++ a.shown.terms.flatMap Shown.termChars).getLast?
          = some ')' := by
        have hterm : Shown.termChars term = (' ' :: '(' :: Shown.inner term) ++ [')'] := rfl
        rw [hconcat, List.concat_eq_append, List.flatMap_append, List.flatMap_singleton, hterm,
          ← List.append_assoc, ← List.append_assoc, List.getLast?_concat]
      rw [hlast] at hc
      obtain rfl := Option.some.inj hc
      decide

/-! ### Reading -/

/-- What an amount shows can be read off its text. -/
theorem read_chars {a : Amount} (h : a.HasPlainLabels) :
    Shown.read a.length a.chars = a.shown := by
  rw [chars_eq_shown]
  refine Shown.read_chars (Nat.one_le_iff_ne_zero.1 (one_le_length a)) (Ranks.isRow_numerals _ _)
    fun term hterm => ?_
  obtain ⟨e, he, rfl⟩ := List.mem_map.1 hterm
  obtain ⟨hopening, hclosing⟩ := h e.1 (List.mem_map_of_mem (List.mem_of_mem_filter he))
  exact ⟨Ranks.isRow_numerals _ _, hopening, hclosing⟩

/-- Amounts have the same text if and only if they show the same. -/
theorem text_eq_iff {a b : Amount} (hlen : a.length = b.length) (ha : a.HasPlainLabels)
    (hb : b.HasPlainLabels) : a.text = b.text ↔ a.shown = b.shown := by
  constructor
  · intro h
    rw [← read_chars ha, ← read_chars hb, hlen, String.ofList_injective h]
  · intro h
    rw [text, text, chars_eq_shown, chars_eq_shown, h]

/-- Amounts with as many ranks show the same if their numerals are the same. -/
theorem shown_eq_iff {a b : Amount} (hlen : a.length = b.length) : a.shown = b.shown ↔
    (∀ j < a.length, numeral (atRank (a.flat?.getD []) j) = numeral (atRank (b.flat?.getD []) j)) ∧
      List.Forall₂
        (fun e f => e.1 = f.1 ∧ ∀ j < a.length, numeral (atRank e.2 j) = numeral (atRank f.2 j))
        (a.terms.entries.filter Shows) (b.terms.entries.filter Shows) := by
  rw [shown, shown, Shown.mk.injEq, ← hlen, Ranks.numerals_eq_iff, ← List.forall₂_eq_eq_eq,
    List.forall₂_map_left_iff, List.forall₂_map_right_iff]
  simp only [Prod.mk.injEq, Ranks.numerals_eq_iff]

/-- Filling up does not show. -/
theorem text_padded (a : Amount) : a.padded.text = a.text := by
  rw [text, text, chars, padded_padded, ← chars]

/-- Texts of amounts with as many ranks and without parentheses in their labels can be read
back : they are the same if and only if the flat parts have the same numerals at every rank,
where a missing flat part counts as zeros, and the terms that show have the same labels in the
same order, with the same numerals at every rank. Filling up does not show in any text. -/
theorem text_read_back :
    (∀ a b : Amount, a.length = b.length → a.HasPlainLabels → b.HasPlainLabels →
      (a.text = b.text ↔
        (∀ j < a.length,
          numeral (atRank (a.flat?.getD []) j) = numeral (atRank (b.flat?.getD []) j)) ∧
        List.Forall₂
          (fun e f => e.1 = f.1 ∧ ∀ j < a.length, numeral (atRank e.2 j) = numeral (atRank f.2 j))
          (a.terms.entries.filter Shows) (b.terms.entries.filter Shows))) ∧
      ∀ a : Amount, a.padded.text = a.text :=
  ⟨fun _ _ hlen ha hb => (text_eq_iff hlen ha hb).trans (shown_eq_iff hlen), text_padded⟩

/-- Two ranks and a share of a stat, the first rank somewhat above a whole number. -/
def roughAmount : Amount := ofRanks [10.0001, 20.0] + ofTerm "AP" [0.5]

/-- Two ranks, and the share written out for both. -/
def roundAmount : Amount := ofRanks [10.0, 20.0] + ofTerm "AP" [0.5, 0.5]

theorem text_read_back_rough :
    roughAmount.length = roundAmount.length ∧ roughAmount.HasPlainLabels ∧
      roundAmount.HasPlainLabels ∧ roughAmount.text = "10/20 (+0.5 AP)" ∧
      (∀ j < 2, numeral (atRank [10.0001, 20.0] j) = numeral (atRank [10.0, 20.0] j)) ∧
      List.Forall₂ (fun e f => e.1 = f.1 ∧
          ∀ j < 2, numeral (atRank e.2 j) = numeral (atRank f.2 j))
        [("AP", [0.5])] [("AP", [0.5, 0.5])] := by
  have hrough : roughAmount.text = "10/20 (+0.5 AP)" := by decide +kernel
  have hround : roundAmount.text = "10/20 (+0.5 AP)" := by decide +kernel
  have hlen : roughAmount.length = roundAmount.length := by decide +kernel
  have hplain : roughAmount.HasPlainLabels := by
    unfold HasPlainLabels
    decide +kernel
  have hplain' : roundAmount.HasPlainLabels := by
    unfold HasPlainLabels
    decide +kernel
  obtain ⟨hflat, hterms⟩ :=
    (text_read_back.1 _ _ hlen hplain hplain').1 (hrough.trans hround.symm)
  exact ⟨hlen, hplain, hplain', hrough, hflat, hterms⟩

/-- Labels with parentheses can read like further terms. -/
example : (ofTerm "AP) (+1 AD" [0.5]).text = (ofTerm "AP" [0.5] + ofTerm "AD" [1.0]).text := by
  decide +kernel

end Amount

end SpellText
