import SpellText.Text.CaseTable

/-!
# Lower case

Lower-casing over the whole of Unicode. Each character is replaced by its
small form (`lowerChar`), with the one rule that looks at the neighbourhood:
a capital sigma that ends a word becomes the final form.

`sameLetters` compares texts up to the case of ASCII letters only.
-/

namespace SpellText.Text

/-- The small form of a single character, its neighbours left out of account.
The dotted capital I keeps its dot as a mark of its own. -/
def lowerChar (c : Char) : List Char :=
  if c.toNat < 0x80 then [c.toLower]
  else if c.toNat == 0x130 then ['i', Char.ofNat 0x307]
  else match caseRuns.find? (·.holds c.toNat) with
    | some run => [Char.ofNat (c.toNat + run.shift).toNat]
    | none => [c]

/-- The next character that decides case, if there is one, is a letter with case. -/
def meetsCased (s : List Char) : Bool :=
  match s.dropWhile isCaseIgnorable with
  | [] => false
  | c :: _ => isCased c

/-- Capital sigma. -/
def capitalSigma : Char := Char.ofNat 0x3A3

/-- The small sigma between the characters `before` (nearest first) and
`after`: the final form at the end of a word. -/
def smallSigma (before after : List Char) : Char :=
  if meetsCased before && !meetsCased after then Char.ofNat 0x3C2 else Char.ofNat 0x3C3

/-- Lower-case `s`, which stands after `before` (nearest character first). -/
def lowercaseAfter (before : List Char) : List Char → List Char
  | [] => []
  | c :: rest =>
    (if c = capitalSigma then [smallSigma before rest] else lowerChar c)
      ++ lowercaseAfter (c :: before) rest

/-- The text in lower case. -/
def lowercase (s : List Char) : List Char := lowercaseAfter [] s

/-- The string in lower case. -/
def lowercased (s : String) : String := String.ofList (lowercase s.toList)

/-- The texts differ at most in the case of ASCII letters. -/
def sameLetters (s t : List Char) : Bool := s.map Char.toLower == t.map Char.toLower

end SpellText.Text
