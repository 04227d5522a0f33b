import SpellText.Json.Writer
import SpellText.Proofs.JsonText.Readable
import SpellText.Proofs.JsonText.Shortest

/-!
# Numbers that are written and read

A number is written as a numeral (`Json.Numeral`) : digits that do not begin with a needless
zero, and as wanted a fraction and an exponent, which have digits. The numeral of a whole number
has its digits (`Number.text_whole`), and that of a finite double stands for a decimal that is
rounded to it (`Number.exists_numeral_of_real`).

A numeral is read off whole where no digit, point or exponent follows (`Reader.number?_chars`).
A whole number that fits 64 bits is read as itself (`Numeral.number?_ofWhole`).
-/

namespace SpellText.Json

open Decimal (Digits RoundsTo digits digits_digits digitsValue_digits digits_of_head signed)
open Text (digitsValue)

/-- A number taken apart : its sign, the digits in front of the point and behind it, and the
exponent with its sign. -/
structure Numeral where
  negative : Bool
  whole : List Char
  fraction : Option (List Char)
  exponent : Option (Bool × List Char)

namespace Numeral

/-- The point and the digits behind it. -/
def fractionChars : Option (List Char) → List Char
  | none => []
  | some ds => '.' :: ds

/-- The mark of an exponent with its sign and its digits. -/
def exponentChars : Option (Bool × List Char) → List Char
  | none => []
  | some (down, ds) => 'e' :: (if down then '-' else '+') :: ds

/-- The text of the numeral. -/
def chars (u : Numeral) : List Char :=
  signed u.negative (u.whole ++ (fractionChars u.fraction ++ exponentChars u.exponent))

/-- The numeral is one of JSON. -/
structure IsWritten (u : Numeral) : Prop where
  digits_whole : Digits u.whole
  whole_ne_nil : u.whole ≠ []
  whole_of_head : u.whole.head? = some '0' → u.whole = ['0']
  fraction : ∀ ds ∈ u.fraction, Digits ds ∧ ds ≠ []
  exponent : ∀ x ∈ u.exponent, Digits x.2 ∧ x.2 ≠ []

/-- The exponent as a number. -/
def scale : Option (Bool × List Char) → Int
  | none => 0
  | some (down, ds) => if down then -digitsValue ds else digitsValue ds

/-- The decimal that the numeral stands for, its sign left aside. -/
def magnitude (u : Numeral) : ℚ :=
  digitsValue (u.whole ++ u.fraction.getD [])
    * 10 ^ (scale u.exponent - (u.fraction.getD []).length)

/-- The number that the numeral is read as. -/
def number? (u : Numeral) : Option Number :=
  Reader.numberOf? u.negative u.whole u.fraction u.exponent

/-- The numeral of a whole number. -/
def ofWhole (n : Int) : Numeral := ⟨n < 0, digits n.natAbs, none, none⟩

theorem isWritten_ofWhole (n : Int) : (ofWhole n).IsWritten where
  digits_whole := digits_digits _
  whole_ne_nil := Nat.toDigits_ne_nil
  whole_of_head := digits_of_head _
  fraction := nofun
  exponent := nofun

end Numeral

/-! ## Writing -/

/-- The text of a whole number is its numeral. -/
theorem Number.text_whole (n : Int) : (whole n).text.toList = (Numeral.ofWhole n).chars := by
  have hrepr (k : Nat) : (Nat.repr k).toList = digits k := String.toList_ofList
  have hchars : (Numeral.ofWhole n).chars = signed (n < 0) (digits n.natAbs) :=
    congrArg (signed _) (List.append_nil _)
  rw [hchars]
  cases n with
  | ofNat k => exact hrepr k
  | negSucc k =>
    have h : (whole (Int.negSucc k)).text.toList = '-' :: (Nat.repr (k + 1)).toList :=
      String.toList_append
    rw [h, hrepr, decide_eq_true (Int.negSucc_lt_zero k)]
    rfl

namespace Numeral

theorem digits_zero : Digits ['0'] := fun c hc => by
  rw [List.mem_singleton.1 hc]
  decide

/-- Digits in front count for as many powers of ten as digits follow. -/
theorem digitsValue_append (ds ds' : List Char) :
    digitsValue (ds ++ ds') = 10 ^ ds'.length * digitsValue ds + digitsValue ds' := by
  have h : digitsValue (ds ++ ds') = Nat.ofDigitChars 10 (ds ++ ds') 0 := rfl
  rw [h, Nat.ofDigitChars_append, Nat.ofDigitChars_eq_ofDigitChars_zero]
  rfl

/-- A number that is not zero is written without a zero in front. -/
theorem head_digits_ne {n : Nat} (hn : 0 < n) : (digits n).head? ≠ some '0' := by
  intro h
  have h0 := congrArg digitsValue (digits_of_head n h)
  rw [digitsValue_digits] at h0
  exact hn.ne' h0

variable {n : Nat} (negative : Bool)

/-- A number of a grid of whole numbers, with one place. -/
theorem exists_of_whole (hn : 0 < n) (k : Nat) : ∃ u : Numeral, u.IsWritten ∧
    u.negative = negative ∧ u.magnitude = n * 10 ^ (k : Int) ∧
      u.chars = signed negative (digits n ++ List.replicate k '0' ++ ['.', '0']) := by
  have hdigits : Digits (digits n ++ List.replicate k '0') := by
    intro c hc
    rcases List.mem_append.1 hc with hc | hc
    · exact digits_digits n c hc
    · rw [List.eq_of_mem_replicate hc]
      decide
  have hne : digits n ≠ [] := Nat.toDigits_ne_nil
  refine ⟨⟨negative, digits n ++ List.replicate k '0', some ['0'], none⟩,
    ⟨hdigits, List.append_ne_nil_of_left_ne_nil hne _, fun h => ?_, ?_, nofun⟩, rfl, ?_, rfl⟩
  · rw [List.head?_append_of_ne_nil _ hne] at h
    exact absurd h (head_digits_ne hn)
  · rintro _ ⟨⟩
    exact ⟨digits_zero, List.cons_ne_nil _ _⟩
  · have hvalue : digitsValue (digits n ++ List.replicate k '0' ++ ['0']) = 10 ^ (k + 1) * n := by
      rw [List.append_assoc, ← List.replicate_succ', Decimal.digitsValue_append_replicate,
        digitsValue_digits]
    rw [magnitude, Option.getD_some, hvalue, scale, pow_succ]
    push_cast
    norm_num
    ring

/-- A number of a grid finer than the whole numbers, with a place for each power of ten. -/
theorem exists_of_places {places : Nat} (hp : 0 < places) (n : Nat) : ∃ u : Numeral, u.IsWritten ∧
    u.negative = negative ∧ u.magnitude = n * 10 ^ (-places : Int) ∧
      u.chars = signed negative (Decimal.fixedPoint places n) := by
  have hlen : (Decimal.paddedDigits places (n % 10 ^ places)).length = places :=
    Decimal.length_paddedDigits hp (Nat.mod_lt n (Nat.pow_pos (by decide)))
  have hplaces : Decimal.paddedDigits places (n % 10 ^ places) ≠ [] :=
    List.ne_nil_of_length_pos (hlen.symm ▸ hp)
  refine ⟨⟨negative, digits (n / 10 ^ places),
      some (Decimal.paddedDigits places (n % 10 ^ places)), none⟩,
    ⟨digits_digits _, Nat.toDigits_ne_nil, digits_of_head _, ?_, nofun⟩, rfl, ?_, ?_⟩
  · rintro _ ⟨⟩
    exact ⟨Decimal.digits_paddedDigits _ _, hplaces⟩
  · have hvalue : digitsValue (digits (n / 10 ^ places)
        ++ Decimal.paddedDigits places (n % 10 ^ places)) = n := by
      rw [digitsValue_append, hlen, digitsValue_digits, Decimal.digitsValue_paddedDigits]
      exact Nat.div_add_mod n _
    rw [magnitude, Option.getD_some, hvalue, hlen, scale, zero_sub]
  · rw [Decimal.fixedPoint, if_neg hp.ne', chars, fractionChars, exponentChars, List.append_nil]
    rfl

/-- A number with an exponent : one digit in front of the point, the others behind it. -/
theorem exists_of_exponent (hn : 0 < n) (k : Int) : ∃ u : Numeral, u.IsWritten ∧
    u.negative = negative ∧ u.magnitude = n * 10 ^ k ∧
      u.chars = signed negative (Decimal.scientificDigits n ++
        'e' :: (if k + (digits n).length - 1 < 0 then '-' else '+') ::
          digits (k + (digits n).length - 1).natAbs) := by
  obtain ⟨d, ds, hds⟩ : ∃ d ds, digits n = d :: ds :=
    List.exists_cons_of_ne_nil Nat.toDigits_ne_nil
  have hall : Digits (d :: ds) := hds ▸ digits_digits n
  have hhead : d ≠ '0' := fun h => head_digits_ne hn (by rw [hds, h]; rfl)
  obtain ⟨power, hpower⟩ : ∃ power : Int, power = k + (digits n).length - 1 := ⟨_, rfl⟩
  have hscale : scale (some (decide (power < 0), digits power.natAbs)) = power := by
    rw [scale, digitsValue_digits]
    by_cases h : power < 0
    · rw [if_pos (decide_eq_true h)]
      omega
    · rw [if_neg (by simpa using h)]
      omega
  have hexponent : ∀ x ∈ some (decide (power < 0), digits power.natAbs),
      Digits x.2 ∧ x.2 ≠ [] := by
    rintro _ ⟨⟩
    exact ⟨digits_digits _, Nat.toDigits_ne_nil⟩
  have hvalue : digitsValue (d :: ds) = n := hds ▸ digitsValue_digits n
  have hlen : power - ds.length = k := by
    rw [hpower, hds, List.length_cons]
    omega
  refine ⟨⟨negative, [d], if ds = [] then none else some ds,
      some (decide (power < 0), digits power.natAbs)⟩,
    ⟨fun c hc => hall c (List.mem_singleton.1 hc ▸ List.mem_cons_self), by simp, fun h => ?_, ?_,
      hexponent⟩, rfl, ?_, ?_⟩
  · exact absurd (Option.some.inj h) hhead
  · split
    · exact nofun
    · next hne =>
      rintro _ ⟨⟩
      exact ⟨fun c hc => hall c (List.mem_cons_of_mem _ hc), hne⟩
  · have hfraction : (if ds = [] then none else some ds).getD [] = ds := by
      split
      · next h => exact h.symm
      · rfl
    rw [magnitude, hfraction, hscale, hlen, List.singleton_append, hvalue]
  · rw [← hpower, Decimal.scientificDigits, hds]
    cases ds with
    | nil => simp [chars, fractionChars, exponentChars]
    | cons c cs => simp [chars, fractionChars, exponentChars]

end Numeral

/-- The text of a finite double is a numeral with its sign, of a decimal that is rounded to the
double. -/
theorem Number.exists_numeral_of_real {x : Float} {negative : Bool} {m : Nat} {e : Int}
    (h : Decimal.Exact.ofFloat x = .finite negative m e) :
    ∃ u : Numeral, u.IsWritten ∧ u.negative = negative ∧ RoundsTo m e u.magnitude ∧
      (real x).text.toList = u.chars := by
  have htext : (real x).text.toList = (numberLayout.text? x).getD ['n', 'u', 'l', 'l'] :=
    String.toList_ofList
  rw [htext, Decimal.Layout.text?, h]
  dsimp only
  rw [Option.getD_some]
  rcases Decimal.bounds_of_ofFloat h with ⟨rfl, rfl⟩ | ⟨hpos, hm, hl, hu⟩
  · refine ⟨⟨negative, ['0'], some ['0'], none⟩,
      ⟨Numeral.digits_zero, List.cons_ne_nil _ _, fun _ => rfl, ?_, nofun⟩, rfl, ?_, rfl⟩
    · rintro _ ⟨⟩
      exact ⟨Numeral.digits_zero, List.cons_ne_nil _ _⟩
    · have hzero : Numeral.magnitude ⟨negative, ['0'], some ['0'], none⟩ = 0 := by
        have h0 : digitsValue (['0'] ++ (some ['0']).getD []) = 0 := rfl
        rw [Numeral.magnitude, h0, Nat.cast_zero, zero_mul]
      rw [hzero]
      exact Decimal.roundsTo_zero
  · have hround := Decimal.roundsTo_shortest numberLayout.tie hpos hm hl hu
    obtain ⟨n, k, hs⟩ : ∃ n k, Decimal.shortest numberLayout.tie m e = (n, k) := ⟨_, _, rfl⟩
    rw [hs] at hround ⊢
    have hn : 0 < n := Nat.pos_of_ne_zero fun h0 => by
      have hpos' := Decimal.Basin.pos_of_roundsTo hpos hround
      rw [h0, Nat.cast_zero, zero_mul] at hpos'
      exact hpos'.false
    rw [if_neg hpos.ne']
    dsimp only
    split
    · split
      · next hk =>
        obtain ⟨k, rfl⟩ := Int.eq_ofNat_of_zero_le hk
        obtain ⟨u, hu, hneg, hmag, hchars⟩ := Numeral.exists_of_whole negative hn k
        refine ⟨u, hu, hneg, hmag ▸ hround, ?_⟩
        rw [hchars, Decimal.positional, if_pos hk]
        rfl
      · next hk =>
        obtain ⟨u, hu, hneg, hmag, hchars⟩ :=
          Numeral.exists_of_places negative (by omega : 0 < (-k).toNat) n
        have hk' : (-((-k).toNat : Int)) = k := by omega
        rw [hk'] at hmag
        refine ⟨u, hu, hneg, hmag ▸ hround, ?_⟩
        rw [hchars, Decimal.positional, if_neg hk]
    · obtain ⟨u, hu, hneg, hmag, hchars⟩ := Numeral.exists_of_exponent negative hn k
      exact ⟨u, hu, hneg, hmag ▸ hround, hchars.symm⟩

/-! ## Reading -/

namespace Reader

open Numeral (fractionChars exponentChars)

/-- Nothing follows, or what separates and closes values. -/
def Ends (r : List Char) : Prop := ∀ c ∈ r.head?, c = ',' ∨ c = ']' ∨ c = '\x7d'

theorem ends_nil : Ends [] := nofun

theorem ends_cons {c : Char} (h : c = ',' ∨ c = ']' ∨ c = '\x7d') (r : List Char) :
    Ends (c :: r) := by
  rintro _ ⟨⟩
  exact h

section

variable {r : List Char}

/-- What ends a value does not go on with a number. -/
theorem Ends.stops (h : Ends r) :
    ∀ c ∈ r.head?, c.isDigit = false ∧ c ≠ '.' ∧ Decimal.isExponentMark c = false := fun c hc => by
  rcases h c hc with rfl | rfl | rfl <;> decide

/-- Digits without a needless zero are read off whole. -/
theorem wholeDigits?_append {ds : List Char} (hd : Digits ds) (hne : ds ≠ [])
    (hz : ds.head? = some '0' → ds = ['0']) (hr : ∀ c ∈ r.head?, c.isDigit = false) :
    wholeDigits? (ds ++ r) = some (ds, r) := by
  rw [wholeDigits?, Decimal.digitRun_append hd hr]
  split
  · next h => exact absurd (congrArg Prod.fst h) hne
  · next h =>
    obtain ⟨rfl, -⟩ := Prod.mk.inj h
    cases hz rfl
  · next h =>
    obtain ⟨rfl, rfl⟩ := Prod.mk.inj h
    rfl

/-- A fraction is read off whole, also where there is none. -/
theorem fractionDigits?_append {fraction : Option (List Char)}
    (hf : ∀ ds ∈ fraction, Digits ds ∧ ds ≠ []) (hr : ∀ c ∈ r.head?, c.isDigit = false)
    (hp : ∀ c ∈ r.head?, c ≠ '.') :
    fractionDigits? (fractionChars fraction ++ r) = some (fraction, r) := by
  cases fraction with
  | none =>
    show fractionDigits? r = _
    unfold fractionDigits?
    split
    · exact absurd rfl (hp '.' rfl)
    · rfl
  | some ds =>
    obtain ⟨hd, hne⟩ := hf ds rfl
    show fractionDigits? ('.' :: (ds ++ r)) = _
    rw [fractionDigits?, Decimal.digitRun_append hd hr]
    split
    · next h => exact absurd (congrArg Prod.fst h) hne
    · next h =>
      obtain ⟨rfl, rfl⟩ := Prod.mk.inj h
      rfl

theorem exponentDigits?_append {ds : List Char} (negative : Bool) (hd : Digits ds) (hne : ds ≠ [])
    (hr : ∀ c ∈ r.head?, c.isDigit = false) :
    exponentDigits? negative (ds ++ r) = some (some (negative, ds), r) := by
  rw [exponentDigits?, Decimal.digitRun_append hd hr]
  split
  · next h => exact absurd (congrArg Prod.fst h) hne
  · next h =>
    obtain ⟨rfl, rfl⟩ := Prod.mk.inj h
    rfl

/-- An exponent is read off whole, also where there is none. -/
theorem exponent?_append {exponent : Option (Bool × List Char)}
    (hx : ∀ x ∈ exponent, Digits x.2 ∧ x.2 ≠ []) (hr : Ends r) :
    exponent? (exponentChars exponent ++ r) = some (exponent, r) := by
  cases exponent with
  | none =>
    cases r with
    | nil => rfl
    | cons c r =>
      exact if_neg (Bool.eq_false_iff.1 (hr.stops c rfl).2.2)
  | some x =>
    obtain ⟨down, ds⟩ := x
    obtain ⟨hd, hne⟩ := hx _ rfl
    have hsign : Decimal.splitSign ((if down then '-' else '+') :: (ds ++ r))
        = (down, ds ++ r) := by
      cases down <;> rfl
    show exponent? ('e' :: (if down then '-' else '+') :: (ds ++ r)) = _
    rw [exponent?, if_pos (by decide), hsign]
    exact exponentDigits?_append down hd hne fun c hc => (hr.stops c hc).1

/-- What follows the digits of a numeral begins with a point, with an exponent or with an end. -/
theorem isDigit_of_behind (fraction : Option (List Char)) (exponent : Option (Bool × List Char))
    (hr : Ends r) :
    (∀ c ∈ (exponentChars exponent ++ r).head?, c.isDigit = false ∧ c ≠ '.') ∧
      ∀ c ∈ (fractionChars fraction ++ (exponentChars exponent ++ r)).head?,
        c.isDigit = false := by
  have hafter : ∀ c ∈ (exponentChars exponent ++ r).head?, c.isDigit = false ∧ c ≠ '.' := by
    cases exponent with
    | none => exact fun c hc => ⟨(hr.stops c hc).1, (hr.stops c hc).2.1⟩
    | some x =>
      rintro _ ⟨⟩
      decide
  refine ⟨hafter, ?_⟩
  cases fraction with
  | none => exact fun c hc => (hafter c hc).1
  | some ds =>
    rintro _ ⟨⟩
    decide

/-- A numeral is read off whole where nothing goes on with it. -/
theorem number?_chars {u : Numeral} (hu : u.IsWritten) (hr : Ends r) :
    number? (u.chars ++ r) = u.number?.map (·, r) := by
  obtain ⟨hafter, hbehind⟩ := isDigit_of_behind u.fraction u.exponent hr
  have hwhole := wholeDigits?_append hu.digits_whole hu.whole_ne_nil hu.whole_of_head hbehind
  have hfraction := fractionDigits?_append hu.fraction (fun c hc => (hafter c hc).1)
    fun c hc => (hafter c hc).2
  have hexponent := exponent?_append hu.exponent hr
  rw [Numeral.chars, ← Decimal.signed_append, List.append_assoc, List.append_assoc,
    Numeral.number?]
  cases u.negative with
  | true =>
    show number? ('-' :: _) = _
    rw [number?]
    simp only [hwhole, hfraction, hexponent, Option.bind_eq_bind, Option.bind_some]
    cases numberOf? true u.whole u.fraction u.exponent <;> rfl
  | false =>
    rw [signed, if_neg Bool.false_ne_true, number?]
    · simp only [hwhole, hfraction, hexponent, Option.bind_eq_bind, Option.bind_some]
      cases numberOf? false u.whole u.fraction u.exponent <;> rfl
    · obtain ⟨d, ds, hds⟩ := List.exists_cons_of_ne_nil hu.whole_ne_nil
      have hd : d.isDigit = true := hu.digits_whole d (hds ▸ List.mem_cons_self)
      intro s hs
      rw [hds] at hs
      rw [(List.cons.inj hs).1] at hd
      exact absurd hd (by decide)

end

/-- Digits whose number fits are all taken in. -/
theorem takeWhole_of_le : ∀ {ds : List Char} {n : Nat}, Nat.ofDigitChars 10 ds n ≤ wordMax →
    takeWhole ⟨n, 0⟩ ds = ⟨Nat.ofDigitChars 10 ds n, 0⟩
  | [], _, _ => rfl
  | d :: ds, n, h => by
    have hd : digitsValue [d] = d.toNat - '0'.toNat := by
      rw [digitsValue, List.foldl_cons, List.foldl_nil, Nat.mul_zero, Nat.zero_add]
    have hle : 10 * n + digitsValue [d] ≤ wordMax := by
      rw [hd]
      exact (Text.le_foldl_digits ds _).trans h
    rw [takeWhole]
    dsimp only
    rw [if_neg (Nat.not_lt.2 hle), takeWhole_of_le (hd ▸ h), hd]
    rfl

end Reader

/-- A whole number that fits is read as itself. -/
theorem Numeral.number?_ofWhole {n : Int} (h : FitsWord n) :
    (ofWhole n).number? = some (.whole n) := by
  simp only [FitsWord, Nat.pow_eq] at h
  obtain ⟨hlow, hhigh⟩ := h
  have hvalue : Nat.ofDigitChars 10 (digits n.natAbs) 0 = n.natAbs := digitsValue_digits _
  have hle : n.natAbs ≤ Reader.wordMax := by
    rw [Reader.wordMax, Nat.pow_eq]
    omega
  have hdigits := Reader.takeWhole_of_le (hvalue.trans_le hle)
  rw [hvalue] at hdigits
  rw [number?, ofWhole, Reader.numberOf?]
  dsimp only
  rw [hdigits, if_neg fun h => h rfl]
  dsimp only
  by_cases hn : n < 0
  · have hsmall : (0 < n.natAbs && n.natAbs ≤ Nat.pow 2 63) = true := by
      rw [Bool.and_eq_true, decide_eq_true_iff, decide_eq_true_iff, Nat.pow_eq]
      omega
    rw [decide_eq_true hn, hsmall, if_neg (by decide), if_pos rfl]
    congr 2
    omega
  · rw [decide_eq_false hn, if_pos Bool.not_false]
    congr 2
    omega

end SpellText.Json
