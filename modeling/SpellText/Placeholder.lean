import SpellText.Amount.Rendering
import SpellText.Champion
import SpellText.Expr.Evaluation

/-!
# Placeholders

The text inside a marker asks for the champion's resource name
(`isResourceName`) or is a *request*: an expression over the numbers of the
ability at hand, or a reference `spell.q:e1` that passes the request behind the
colon on to another ability. References may be chained; the last one decides.

`Request.ofChars` reads a request, `Request.text` answers it.
-/

namespace SpellText

/-- The text asks for the resource name, in letters of either case. -/
def isResourceName (s : List Char) : Bool := Text.sameLetters s "abilityresourcename".toList

/-- What a text asks of an ability. -/
inductive Request
  /-- The value of an expression. -/
  | expression (source : String)
  /-- A further request, to another ability. -/
  | refer (reference : String) (inner : Request)
  /-- A reference without a colon; the text behind the word `spell.`. -/
  | malformed (text : String)
  deriving DecidableEq, Repr

namespace Request

/-! ## Reading -/

/-- The start of a reference. -/
def referenceStart : List Char := "spell.".toList

/-- The text behind the start of a reference, whose letters may be of either case. -/
def afterReferenceStart? (s : List Char) : Option (List Char) :=
  if Text.sameLetters (s.take 6) referenceStart then some (s.drop 6) else none

/-- The text before and after the first colon. -/
def splitColon? : List Char → Option (List Char × List Char)
  | [] => none
  | c :: rest =>
    if c = ':' then some ([], rest)
    else match splitColon? rest with
      | some (before, after) => some (c :: before, after)
      | none => none

/-- What stands behind the start of a reference is no longer than the text. -/
theorem length_afterReferenceStart {s t : List Char} (h : afterReferenceStart? s = some t) :
    t.length ≤ s.length := by
  unfold afterReferenceStart? at h
  split at h
  · cases h
    simp
  · cases h

/-- The colon goes. -/
theorem length_splitColon {s a b : List Char} (h : splitColon? s = some (a, b)) :
    b.length < s.length := by
  induction s generalizing a with
  | nil => simp [splitColon?] at h
  | cons c rest ih =>
    unfold splitColon? at h
    split at h
    · cases h
      simp
    · split at h
      · next before after h' =>
        cases h
        have := ih h'
        simp only [List.length_cons]
        omega
      · cases h

/-- Trimming the start adds nothing. -/
theorem length_trimStart_le (s : List Char) : (Text.trimStart s).length ≤ s.length :=
  (List.dropWhile_sublist _).length_le

/-- The request of a text without blanks at its end. No text inside of it has
blanks there, so that none is trimmed at that end again. -/
def ofTrimmed (s : List Char) : Request :=
  match _h : afterReferenceStart? s with
  | none => .expression (String.ofList s)
  | some tail =>
    match _h' : splitColon? tail with
    | none => .malformed (String.ofList tail)
    | some (reference, inner) =>
      .refer (String.ofList reference) (ofTrimmed (Text.trimStart inner))
termination_by s.length
decreasing_by
  have h₁ := length_afterReferenceStart _h
  have h₂ := length_splitColon _h'
  have h₃ := length_trimStart_le inner
  omega

/-- One step of reading a request. -/
theorem ofTrimmed_eq_match (s : List Char) :
    ofTrimmed s = match afterReferenceStart? s with
      | none => .expression (String.ofList s)
      | some tail =>
        match splitColon? tail with
        | none => .malformed (String.ofList tail)
        | some (reference, inner) =>
          .refer (String.ofList reference) (ofTrimmed (Text.trimStart inner)) := by
  rw [ofTrimmed]
  split
  · next h => rw [h]
  · next tail h =>
    rw [h]
    dsimp only
    split
    · next h' => rw [h']
    · next reference inner h' => rw [h']

/-- The request of a text. The text behind a colon is trimmed. -/
def ofChars (s : List Char) : Request :=
  match afterReferenceStart? s with
  | none => .expression (String.ofList s)
  | some tail =>
    match splitColon? tail with
    | none => .malformed (String.ofList tail)
    | some (reference, inner) => .refer (String.ofList reference) (ofTrimmed (Text.trim inner))

/-- What stands behind the start of a reference is the end of the text. -/
theorem suffix_of_afterReferenceStart {s t : List Char} (h : afterReferenceStart? s = some t) :
    t <:+ s := by
  unfold afterReferenceStart? at h
  split at h
  · cases h
    exact List.drop_suffix 6 s
  · cases h

/-- What stands behind the colon is the end of the text. -/
theorem suffix_of_splitColon {s a b : List Char} (h : splitColon? s = some (a, b)) : b <:+ s := by
  induction s generalizing a with
  | nil => simp [splitColon?] at h
  | cons c rest ih =>
    unfold splitColon? at h
    split at h
    · cases h
      exact List.suffix_cons _ _
    · split at h
      · next before after h' =>
        cases h
        exact (ih h').trans (List.suffix_cons c rest)
      · cases h

/-- Where no blanks are at the end, it does not matter that none are trimmed there. -/
theorem ofTrimmed_eq {s : List Char} (hs : Text.trimEnd s = s) : ofTrimmed s = ofChars s := by
  unfold ofTrimmed ofChars
  split
  · next h => simp [h]
  · next tail h =>
    split
    · next h' => simp [h, h']
    · next reference inner h' =>
      have hi : Text.trimStart inner <:+ s :=
        (List.dropWhile_suffix _).trans
          ((suffix_of_splitColon h').trans (suffix_of_afterReferenceStart h))
      simp [h, h', Text.trim, Text.trimEnd_of_suffix hi hs]

/-- The request of a text. -/
def ofText (text : String) : Request := ofChars text.toList

/-! ## Answering -/

/-- The amount of `source` over the numbers of an ability, as text. -/
def expressionText (c : Champion) (ability : Ability) (source : String) : Except Fault String :=
  (Expr.evaluateText (ability.amount c.stats) source).map Amount.text

/-- The text that answers a request to an ability. -/
def text (c : Champion) : Request → Ability → Except Fault String
  | .expression source, ability => expressionText c ability source
  | .refer reference inner, _ =>
    match c.findAbility? reference with
    | some target => text c inner target
    | none => .error (.unknownReference reference)
  | .malformed tail, _ => .error (.malformedReference ("spell." ++ tail))

/-- The text that answers a request where there may be no ability at hand; then
an expression has no answer. -/
def answer? (c : Champion) (ability : Option Ability) : Request → Option (Except Fault String)
  | .expression source => ability.map fun a => expressionText c a source
  | .refer reference inner =>
    match c.findAbility? reference with
    | some target => some (text c inner target)
    | none => some (.error (.unknownReference reference))
  | .malformed tail => some (.error (.malformedReference ("spell." ++ tail)))

end Request

end SpellText
