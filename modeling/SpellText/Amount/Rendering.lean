import SpellText.Amount.Basic
import SpellText.Decimal.Numeral

/-!
# The text of an amount

The flat part comes first, its ranks divided by slashes and drawn together when
they all read the same. Every scaling term that is not negligible follows in
parentheses, with a sign and its label: `80/115/150 (+0.6 AP)` has one such
term.
-/

namespace SpellText

namespace Ranks

/-- Texts with `separator` between them. -/
def joined (separator : Char) : List (List Char) → List Char
  | [] => []
  | [s] => s
  | s :: rest => s ++ separator :: joined separator rest

/-- A character between the texts is the separator. -/
theorem of_mem_joined {separator c : Char} :
    ∀ {ss : List (List Char)}, c ∈ joined separator ss → c = separator ∨ ∃ s ∈ ss, c ∈ s
  | [], h => nomatch h
  | [s], h => .inr ⟨s, List.mem_cons_self, h⟩
  | s :: t :: ss, h => by
    rcases List.mem_append.1 h with h | h
    · exact .inr ⟨s, List.mem_cons_self, h⟩
    · rcases List.mem_cons.1 h with h | h
      · exact .inl h
      · exact (of_mem_joined h).imp_right fun ⟨u, hu, hc⟩ => ⟨u, List.mem_cons_of_mem s hu, hc⟩

/-- The ranks divided by slashes; one numeral when all ranks read the same. -/
def chars (cs : List Float) : List Char :=
  match cs.map Decimal.numeralChars with
  | [] => ['0']
  | first :: rest => if rest.all (· == first) then first else joined '/' (first :: rest)

/-- Ranks are written with slashes and what numerals are made of. -/
theorem of_mem_chars {cs : List Float} {c : Char} (h : c ∈ chars cs) :
    c = '/' ∨ Decimal.isNumeralChar c = true := by
  have hnum : ∀ s ∈ cs.map Decimal.numeralChars, Decimal.IsNumeric s := by
    intro s hs
    obtain ⟨x, -, rfl⟩ := List.mem_map.1 hs
    exact Decimal.isNumeric_numeralChars x
  unfold chars at h
  split at h
  · rw [List.mem_singleton.1 h]
    exact .inr (by decide)
  · next first rest heq =>
    rw [heq] at hnum
    split at h
    · exact .inr (hnum first List.mem_cons_self c h)
    · exact (of_mem_joined h).imp_right fun ⟨s, hs, hc⟩ => hnum s hs c hc

/-- The ranks divided by slashes; one numeral when all ranks read the same. -/
def text (cs : List Float) : String := String.ofList (chars cs)

/-- The magnitude below which a coefficient is taken for zero. -/
def negligible : Float := 1e-8

/-- No coefficient is large enough to show. -/
def areNegligible (cs : List Float) : Bool := cs.all (·.abs < negligible)

end Ranks

namespace Amount

/-- The text of a scaling term, empty when the term does not show. -/
def termChars (label : String) (cs : List Float) : List Char :=
  if label == flatLabel || Ranks.areNegligible cs then []
  else
    let ranks := Ranks.chars cs
    [' ', '('] ++ (if ranks.head? == some '-' then [] else ['+']) ++ ranks
      ++ ' ' :: label.toList ++ [')']

/-- The text of an amount. -/
def chars (a : Amount) : List Char :=
  let p := a.padded
  Ranks.chars (p.flat?.getD (List.replicate p.length 0.0))
    ++ p.terms.entries.flatMap fun e => termChars e.1 e.2

/-- The text of an amount. -/
def text (a : Amount) : String := String.ofList a.chars

end Amount

end SpellText
