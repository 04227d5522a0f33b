import SpellText.Proofs.Grammar.Literal
import SpellText.Proofs.LetterCase.Text
import SpellText.Ability

/-!
# Amounts at the next level

Cooldown, cost, range and the amounts of effects have a variant with `nl` behind their names
(`IsLevelName`). It is the sequence of the name without `nl`, one rank further on, where the
last rank repeats : `Ability.amountWithin_nextLevel`.

Both names come to the same place of the sheet. For effects, reading a name is the inverse of
writing it with either mark at its end (`effectName?_append`, `exists_of_effectName?`), and
what is found there, or the fault in it, is shifted afterwards. Nothing else that an ability
knows is looked at, since these names are tried before all that it could name in its own way.
-/

namespace SpellText

/-! ## Sequences one rank further on -/

namespace Ranks

@[simp] theorem length_next (cs : List Float) : (next cs).length = cs.length := by
  cases cs with
  | nil => rfl
  | cons x xs => simp [next]

/-- Every rank has the coefficient of the one behind it, and the last keeps its own. -/
theorem getElem?_next {cs : List Float} {i : Nat} (h : i < cs.length) :
    (next cs)[i]? = cs[min (i + 1) (cs.length - 1)]? := by
  cases cs with
  | nil => simp at h
  | cons x xs =>
    have hlen : (x :: xs).length - 1 = xs.length := rfl
    rw [next, hlen]
    rcases Nat.lt_or_ge i xs.length with hi | hi
    · rw [Nat.min_eq_left hi, List.getElem?_append_left hi, List.getElem?_cons_succ]
    · obtain rfl : i = xs.length := by simp at h; omega
      rw [Nat.min_eq_right (Nat.le_succ _), List.getElem?_concat_length, last,
        List.getLast?_eq_getElem?, hlen, List.getElem?_eq_getElem (by simp), Option.getD_some]

end Ranks

/-! ## Names with a next level -/

namespace Text

/-- No range of one table has anything in common with a range of the other. -/
def areApart (ranges ranges' : List (Nat × Nat)) : Bool :=
  ranges.all fun r => ranges'.all fun r' => r.2.blt r'.1 || r'.2.blt r.1

theorem inRanges_of_areApart {ranges ranges' : List (Nat × Nat)} {c : Char}
    (h : areApart ranges ranges' = true) (hc : inRanges ranges c = true) :
    inRanges ranges' c = false := by
  obtain ⟨r, hr, hin⟩ := List.any_eq_true.1 hc
  refine List.any_eq_false.2 fun r' hr' hin' => ?_
  have hapart := List.all_eq_true.1 (List.all_eq_true.1 h r hr) r' hr'
  simp only [Bool.and_eq_true, Bool.or_eq_true, decide_eq_true_eq, Nat.blt_eq] at hin hin' hapart
  omega

theorem inRanges_of_isDecimalDigit {c : Char} (h : isDecimalDigit c = true) :
    inRanges decimalDigitRanges c = true := by
  rcases Bool.or_eq_true_iff.1 h with hd | hd
  · obtain ⟨hlow, hhigh⟩ := isDigit_iff.1 hd
    refine List.any_eq_true.2 ⟨(0x30, 0x39), List.mem_cons_self, ?_⟩
    simpa using ⟨hlow, hhigh⟩
  · exact hd

/-- No blank, and a text of its own in lower case. -/
structure IsSettled (c : Char) : Prop where
  notBlank : isBlank c = false
  lower : lowerChar c = [c]
  ne : c ≠ capitalSigma

/-- What stands in no run of capitals is its own lower case. -/
theorem lowerChar_of_not_inRanges {c : Char} (hl : c.isAlpha = false) (hdot : c.toNat ≠ 0x130)
    (hr : inRanges (caseRuns.map fun r => (r.first, r.last)) c = false) : lowerChar c = [c] := by
  have hnone : caseRuns.find? (·.holds c.toNat) = none := by
    refine List.find?_eq_none.2 fun run hrun hholds => ?_
    simp only [CaseRun.holds, Bool.and_eq_true, decide_eq_true_eq] at hholds
    rw [inRanges, List.any_eq_false] at hr
    exact hr _ (List.mem_map_of_mem hrun) (by simpa using hholds.1)
  rw [lowerChar, hnone, toLower_of_isAlpha hl]
  simp [hdot]

/-- A decimal digit is its own lower case. -/
theorem isSettled_of_isDecimalDigit {c : Char} (h : isDecimalDigit c = true) : IsSettled c := by
  have hr := inRanges_of_isDecimalDigit h
  have hletter : inRanges [(65, 90), (97, 122)] c = false :=
    inRanges_of_areApart (by decide +kernel) hr
  have hdot : inRanges [(0x130, 0x130)] c = false := inRanges_of_areApart (by decide +kernel) hr
  have hruns : inRanges (caseRuns.map fun r => (r.first, r.last)) c = false :=
    inRanges_of_areApart (by decide +kernel) hr
  refine ⟨inRanges_of_areApart (by decide +kernel) hr, lowerChar_of_not_inRanges ?_ ?_ hruns, ?_⟩
  · rw [← Bool.not_eq_true, isAlpha_iff]
    simpa [inRanges] using hletter
  · rintro hc
    simp [inRanges, hc] at hdot
  · rintro rfl
    exact absurd h (by decide +kernel)

/-- A settled text stays as it is when it is trimmed. -/
theorem trim_of_isSettled {s : List Char} (h : ∀ c ∈ s, IsSettled c) : trim s = s :=
  trim_of_ends (fun c hc => (h c (List.mem_of_head? hc)).notBlank)
    fun c hc => (h c (List.mem_of_getLast? hc)).notBlank

/-- A text of characters that are their own lower case stays. -/
theorem lowercaseAfter_of_isSettled {before s : List Char} (h : ∀ c ∈ s, IsSettled c) :
    lowercaseAfter before s = s := by
  induction s generalizing before with
  | nil => rfl
  | cons c s ih =>
    obtain ⟨hc, hs⟩ := List.forall_mem_cons.1 h
    rw [lowercaseAfter, if_neg hc.ne, hc.lower, ih hs, List.singleton_append]

/-- A name that is a settled text but for the case of its letters is looked up as that text. -/
theorem lowercased_trimmed_of_sameLetters {name : String} {s : List Char}
    (hs : ∀ c ∈ s, IsSettled c) (h : sameLetters name.toList s = true) :
    lowercased (trimmed name) = String.ofList s := by
  have hl : (trim name.toList).map Char.toLower = s.map Char.toLower := by
    rw [← trim_toLower, sameLetters_iff.1 h, trim_toLower, trim_of_isSettled hs]
  rw [lowercased, trimmed, String.toList_ofList, ← lowercase_toLower, hl, lowercase_toLower,
    lowercase, lowercaseAfter_of_isSettled hs]

end Text

namespace Ability

/-- What stands at the end of the names of amounts at the next level. -/
def levelMark (next : Bool) : List Char := if next then "nl".toList else []

/-- The names of amounts that have a next level, in lower case and without the mark for it. -/
inductive IsLevelName : List Char → Prop
  | row {name : String} : name ∈ ["cooldown", "cost", "range"] → IsLevelName name.toList
  /-- The digits may be those of any script. -/
  | effect {word tail : String} {digits : List Char} :
    word ∈ ["e", "effect"] → tail ∈ ["", "amount"] → digits ≠ [] →
      (∀ d ∈ digits, Text.isDecimalDigit d = true) →
        IsLevelName (word.toList ++ (digits ++ tail.toList))

open Text (IsSettled)

/-- The words that these names and the mark are made of. -/
def levelWords : List String := ["cooldown", "cost", "range", "e", "effect", "", "amount", "nl"]

theorem isSettled_of_levelWords {word : String} (h : word ∈ levelWords) :
    ∀ c ∈ word.toList, IsSettled c := by
  have hall : ∀ word ∈ levelWords, (word.toList.all fun c =>
      !Text.isBlank c && Text.lowerChar c == [c] && c != Text.capitalSigma) = true := by decide
  intro c hc
  have hsettled := List.all_eq_true.1 (hall word h) c hc
  simp only [Bool.and_eq_true, Bool.not_eq_true', beq_iff_eq, bne_iff_ne] at hsettled
  obtain ⟨⟨hblank, hlower⟩, hne⟩ := hsettled
  exact ⟨hblank, hlower, hne⟩

/-- A levelled name is in lower case, also with the mark of the next level. -/
theorem IsLevelName.isSettled {s : List Char} (h : IsLevelName s) (next : Bool) :
    ∀ c ∈ s ++ levelMark next, IsSettled c := by
  have hmark : ∀ c ∈ levelMark next, IsSettled c := by
    cases next with
    | false => nofun
    | true =>
      have hmem : "nl" ∈ levelWords := by decide
      exact isSettled_of_levelWords hmem
  refine List.forall_mem_append.2 ⟨?_, hmark⟩
  cases h with
  | row hname => exact isSettled_of_levelWords (List.mem_append_left _ hname)
  | effect hword htail _ hdigits =>
    have hword' : ["e", "effect"] ⊆ levelWords := by decide
    have htail' : ["", "amount"] ⊆ levelWords := by decide
    exact List.forall_mem_append.2 ⟨isSettled_of_levelWords (hword' hword),
      List.forall_mem_append.2 ⟨fun d hd => Text.isSettled_of_isDecimalDigit (hdigits d hd),
        isSettled_of_levelWords (htail' htail)⟩⟩

/-! ## Reading the names of effects -/

theorem dropStart?_append (p s : List Char) : dropStart? p (p ++ s) = some s := by
  simp [dropStart?]

/-- What is left behind a start goes on from it. -/
theorem eq_append_of_dropStart? {p s t : List Char} (h : dropStart? p s = some t) : s = p ++ t := by
  unfold dropStart? at h
  split at h
  · next hp =>
    cases h
    exact (List.prefix_iff_eq_append.1 (List.isPrefixOf_iff_prefix.1 hp)).symm
  · cases h

theorem effectSuffix?_append {tail : String} (h : tail ∈ ["", "amount"]) (next : Bool) :
    effectSuffix? (tail.toList ++ levelMark next) = some next := by
  have hall : ∀ next, ∀ tail ∈ ["", "amount"],
      effectSuffix? (tail.toList ++ levelMark next) = some next := by decide
  exact hall next tail h

theorem exists_of_effectSuffix? {s : List Char} {next : Bool} (h : effectSuffix? s = some next) :
    ∃ tail ∈ ["", "amount"], s = tail.toList ++ levelMark next := by
  unfold effectSuffix? at h
  simp only [Bool.or_eq_true, decide_eq_true_eq] at h
  split at h
  · next hs =>
    cases h
    rcases hs with rfl | rfl
    · exact ⟨"", by decide, rfl⟩
    · exact ⟨"amount", by decide, rfl⟩
  · split at h
    · next hs =>
      cases h
      rcases hs with rfl | rfl
      · exact ⟨"", by decide, rfl⟩
      · exact ⟨"amount", by decide, by decide⟩
    · cases h

/-- What is read behind the word of an effect is its digits and its end. -/
theorem exists_of_effectTail? {s : List Char} {e : EffectName} (h : effectTail? s = some e) :
    ∃ tail ∈ ["", "amount"], s = e.digits ++ (tail.toList ++ levelMark e.next) ∧ e.digits ≠ [] ∧
      ∀ d ∈ e.digits, Text.isDecimalDigit d = true := by
  rw [effectTail?, List.span_eq_takeWhile_dropWhile] at h
  split at h
  · cases h
  · next digits rest hne hsplit =>
    obtain ⟨next, hnext, rfl⟩ := Option.map_eq_some_iff.1 h
    obtain ⟨rfl, rfl⟩ := Prod.mk.inj hsplit
    obtain ⟨tail, htail, hrest⟩ := exists_of_effectSuffix? hnext
    refine ⟨tail, htail, ?_, hne, List.all_eq_true.1 List.all_takeWhile⟩
    rw [← hrest, List.takeWhile_append_dropWhile]

/-- Whatever is read as the name of an effect is one, with the mark or without. -/
theorem exists_of_effectName? {s : List Char} {e : EffectName} (h : effectName? s = some e) :
    ∃ t, IsLevelName t ∧ s = t ++ levelMark e.next := by
  have hword : ∀ word ∈ ["e", "effect"], (dropStart? word.toList s).bind effectTail? = some e →
      ∃ t, IsLevelName t ∧ s = t ++ levelMark e.next := by
    intro word hword h
    obtain ⟨t, ht, he⟩ := Option.bind_eq_some_iff.1 h
    obtain ⟨tail, htail, rfl, hne, hdigits⟩ := exists_of_effectTail? he
    refine ⟨_, .effect hword htail hne hdigits, ?_⟩
    rw [eq_append_of_dropStart? ht, List.append_assoc, List.append_assoc]
  rcases Option.or_eq_some_iff.1 h with h | ⟨-, h⟩
  · exact hword "effect" (by decide) h
  · exact hword "e" (by decide) h

section

variable {digits : List Char} (hd : digits ≠ []) (hall : ∀ d ∈ digits, Text.isDecimalDigit d = true)
include hd hall

/-- The digits and the end of the name of an effect are read. -/
theorem effectTail?_append {tail : String} (h : tail ∈ ["", "amount"]) (next : Bool) :
    effectTail? (digits ++ (tail.toList ++ levelMark next)) = some ⟨digits, next⟩ := by
  have hhead : ∀ c ∈ (tail.toList ++ levelMark next).head?, Text.isDecimalDigit c = false := by
    have hheads : ∀ next, ∀ tail ∈ ["", "amount"],
        ((tail.toList ++ levelMark next).head?.all fun c => !Text.isDecimalDigit c) = true := by
      decide
    intro c hc
    simpa using (Option.all_eq_true _ _).1 (hheads next tail h) c hc
  obtain ⟨d, ds, rfl⟩ := List.exists_cons_of_ne_nil hd
  rw [effectTail?, List.span_eq_takeWhile_dropWhile, Decimal.takeWhile_append_of_head hall hhead,
    Decimal.dropWhile_append_of_head hall hhead]
  dsimp only
  rw [effectSuffix?_append h, Option.map_some]

/-- The name of an effect is read with its digits and its mark. -/
theorem effectName?_append {word tail : String} (hw : word ∈ ["e", "effect"])
    (ht : tail ∈ ["", "amount"]) (next : Bool) :
    effectName? (word.toList ++ (digits ++ tail.toList) ++ levelMark next)
      = some ⟨digits, next⟩ := by
  have htail := effectTail?_append hd hall ht next
  rw [List.append_assoc, List.append_assoc, effectName?]
  have hcases : word = "e" ∨ word = "effect" := by simpa using hw
  rcases hcases with rfl | rfl
  · -- A digit is not the second letter of the longer word.
    have hnone : dropStart? "effect".toList
        ("e".toList ++ (digits ++ (tail.toList ++ levelMark next))) = none := by
      refine Option.eq_none_iff_forall_ne_some.2 fun t ht => ?_
      obtain ⟨d, ds, rfl⟩ := List.exists_cons_of_ne_nil hd
      have hsecond := congrArg (·[1]?) (eq_append_of_dropStart? ht)
      have hf : d = 'f' := by simpa using hsecond
      exact absurd (hf ▸ hall d List.mem_cons_self) (by decide)
    rw [hnone, dropStart?_append]
    exact htail
  · rw [dropStart?_append, Option.bind_some, htail]
    rfl

end

/-! ## What the names mean -/

theorem IsLevelName.head?_ne {s : List Char} (h : IsLevelName s) (next : Bool) :
    (s ++ levelMark next).head? ≠ some 's' := by
  cases h with
  | row hname =>
    have hall : ∀ next, ∀ name ∈ ["cooldown", "cost", "range"],
        (name.toList ++ levelMark next).head? ≠ some 's' := by decide
    exact hall next _ hname
  | @effect word _ _ hword =>
    have hcases : word = "e" ∨ word = "effect" := by simpa using hword
    rcases hcases with rfl | rfl <;> simp

theorem IsLevelName.notMem_zeroNames {s : List Char} (h : IsLevelName s) (next : Bool) :
    String.ofList (s ++ levelMark next) ∉ zeroNames := by
  intro hmem
  have hall : ∀ z ∈ zeroNames, z.toList.head? = some 's' := by decide
  exact h.head?_ne next (by simpa using hall _ hmem)

/-- The amounts under a name with a next level, or the fault in them, come from the sheet. At
the next level they are the same amounts, shifted. -/
theorem exists_meaning_of_levelName (a : Ability) {s : List Char} (h : IsLevelName s) :
    ∃ cs : Except Fault (List Float), ∀ values formulas stats name next,
      Text.lowercased (Text.trimmed name) = String.ofList (s ++ levelMark next) →
        { a with values := values, formulas := formulas }.meaning stats name
          = .ranks (cs.map (atLevel next)) := by
  have hzero := h.notMem_zeroNames
  cases h with
  | @row row hrow =>
    have hnone : ∀ next, ∀ row ∈ ["cooldown", "cost", "range"],
        effectName? (row.toList ++ levelMark next) = none := by decide
    obtain ⟨ranks, hranks⟩ : ∃ ranks, ∀ next,
        a.rankRow? (String.ofList (row.toList ++ levelMark next)) = some (atLevel next ranks) := by
      have hcases : row = "cooldown" ∨ row = "cost" ∨ row = "range" := by simpa using hrow
      rcases hcases with rfl | rfl | rfl
      · exact ⟨a.cooldown, fun next => by cases next <;> rfl⟩
      · exact ⟨a.cost, fun next => by cases next <;> rfl⟩
      · exact ⟨a.range, fun next => by cases next <;> rfl⟩
    refine ⟨.ok ranks, fun values formulas stats name next hname => ?_⟩
    have hrow' : { a with values := values, formulas := formulas }.rankRow?
        (String.ofList (row.toList ++ levelMark next)) = some (atLevel next ranks) := hranks next
    rw [meaning, hname]
    dsimp only
    rw [if_neg (hzero next), String.toList_ofList, hnone next row hrow]
    dsimp only
    rw [hrow']
    rfl
  | @effect word tail digits hword htail hne hdigits =>
    have hread := effectName?_append hne hdigits hword htail
    let index := Text.digitsValueUpTo effectBound digits
    refine ⟨if digits.all Char.isDigit && index < effectBound then a.effectRanks index else .ok [],
      fun values formulas stats name next hname => ?_⟩
    rw [meaning, hname]
    dsimp only
    rw [if_neg (hzero next), String.toList_ofList, hread next]
    dsimp only
    refine congrArg Meaning.ranks ?_
    unfold namedEffect
    dsimp only
    split
    · rfl
    · cases next <;> rfl

/-- A name that means ranks stands for them at every depth. -/
theorem amountWithin_of_meaning {a : Ability} {stats : BaseStats} {name : String}
    {cs : Except Fault (List Float)} (h : a.meaning stats name = .ranks cs) (levels : Nat) :
    a.amountWithin stats levels name = cs.map .ofRanks := by
  cases levels <;> rw [amountWithin, amountWith, h]

/-- A name with a next level fails if and only if the name with `nl` behind it does, and with
the same fault. Otherwise both are flat amounts of as many ranks, where every rank of the one
at the next level is that of the other behind it, and the last one repeats. The letters may be
of either case and the number of an effect of any size, and neither amount depends on the
named numbers, the formulas and the base stats or on the formulas around. -/
theorem amountWithin_nextLevel (a : Ability) {form : List Char} (hform : IsLevelName form)
    {name mark : String} (hname : Text.sameLetters name.toList form = true)
    (hmark : Text.sameLetters mark.toList "nl".toList = true) :
    (∀ stats levels f, a.amountWithin stats levels name = .error f ↔
      a.amountWithin stats levels (name ++ mark) = .error f) ∧
    (∀ stats levels v, a.amountWithin stats levels name = .ok v →
      ∃ cs cs', v = .ofRanks cs ∧ a.amountWithin stats levels (name ++ mark) = .ok (.ofRanks cs') ∧
        cs'.length = cs.length ∧ ∀ i < cs.length, cs'[i]? = cs[min (i + 1) (cs.length - 1)]?) ∧
    ∀ values formulas stats stats' levels levels', ∀ x ∈ [name, name ++ mark],
      { a with values := values, formulas := formulas }.amountWithin stats' levels' x
        = a.amountWithin stats levels x := by
  have hthis : Text.lowercased (Text.trimmed name) = String.ofList (form ++ levelMark false) := by
    refine Text.lowercased_trimmed_of_sameLetters (hform.isSettled false) ?_
    rwa [levelMark, if_neg Bool.false_ne_true, List.append_nil]
  have hnext : Text.lowercased (Text.trimmed (name ++ mark))
      = String.ofList (form ++ levelMark true) := by
    refine Text.lowercased_trimmed_of_sameLetters (hform.isSettled true) ?_
    rw [Text.sameLetters_iff] at hname hmark ⊢
    rw [String.toList_append, List.map_append, hname, hmark, ← List.map_append]
    rfl
  obtain ⟨cs, hcs⟩ := a.exists_meaning_of_levelName hform
  have hamount : ∀ values formulas stats levels,
      { a with values := values, formulas := formulas }.amountWithin stats levels name
        = (cs.map (atLevel false)).map .ofRanks := fun values formulas stats levels =>
    amountWithin_of_meaning (hcs values formulas stats name false hthis) levels
  have hamount' : ∀ values formulas stats levels,
      { a with values := values, formulas := formulas }.amountWithin stats levels (name ++ mark)
        = (cs.map (atLevel true)).map .ofRanks := fun values formulas stats levels =>
    amountWithin_of_meaning (hcs values formulas stats (name ++ mark) true hnext) levels
  refine ⟨fun stats levels f => ?_, fun stats levels v hv => ?_,
    fun values formulas stats stats' levels levels' =>
      List.forall_mem_cons.2 ⟨?_, List.forall_mem_singleton.2 ?_⟩⟩
  · rw [hamount a.values a.formulas, hamount' a.values a.formulas]
    cases cs <;> simp [Except.map]
  · rw [hamount a.values a.formulas] at hv
    rw [hamount' a.values a.formulas]
    cases cs with
    | error f => cases hv
    | ok cs =>
      cases hv
      exact ⟨cs, Ranks.next cs, rfl, rfl, Ranks.length_next cs, fun i => Ranks.getElem?_next⟩
  · rw [hamount, ← hamount a.values a.formulas stats levels]
  · rw [hamount', ← hamount' a.values a.formulas stats levels]

/-- An ability whose second effect grows with its ranks. -/
def growing : Ability :=
  .ofRecords "AhriQ" { SpellSheet.empty with effects := [none, some [10, 20, 30]] }
    ⟨[⟨some "E1Amount", [7]⟩], []⟩

theorem amountWithin_nextLevel_growing :
    IsLevelName "e1amount".toList ∧
      Text.sameLetters "E1Amount".toList "e1amount".toList = true ∧
      Text.sameLetters "nl".toList "nl".toList = true ∧
      growing.amount ⟨.empty⟩ "E1Amount" = .ok (.ofRanks [10, 20, 30]) ∧
      ∃ cs, growing.amount ⟨.empty⟩ "E1Amountnl" = .ok (.ofRanks cs) ∧ cs.length = 3 ∧
        ∀ i < 3, cs[i]? = ([10, 20, 30] : List Float)[min (i + 1) 2]? := by
  have hword : "e" ∈ ["e", "effect"] := by decide
  have htail : "amount" ∈ ["", "amount"] := by decide
  have hdigits : ∀ d ∈ ['1'], Text.isDecimalDigit d = true :=
    List.forall_mem_singleton.2 (by decide)
  have hform : IsLevelName "e1amount".toList :=
    .effect hword htail (List.cons_ne_nil _ _) hdigits
  have hname : Text.sameLetters "E1Amount".toList "e1amount".toList = true := by decide
  have hmark : Text.sameLetters "nl".toList "nl".toList = true := by decide
  have hamount : growing.amount ⟨.empty⟩ "E1Amount" = .ok (.ofRanks [10, 20, 30]) := by rfl
  obtain ⟨-, hok, -⟩ := growing.amountWithin_nextLevel hform hname hmark
  obtain ⟨cs, cs', hcs, hnext, hlen, hranks⟩ := hok ⟨.empty⟩ formulaLimit _ hamount
  obtain rfl : [10, 20, 30] = cs := by
    simpa [Amount.ofRanks, Amount.ofTerm, Table.single] using hcs
  exact ⟨hform, hname, hmark, hamount, cs', hnext, hlen, hranks⟩

end Ability

end SpellText
