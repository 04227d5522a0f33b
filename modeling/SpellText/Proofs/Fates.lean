import SpellText.Substitution
import SpellText.Proofs.Braces

/-!
# What becomes of markers

Every placeholder has a *fate* that does not depend on what was counted before
(`Context.fate`). It decides the text that takes the place of the marker and the
tally of that marker, and a text adds the tallies of its markers from left to
right (`Context.fillText_eq`).

`Context.fillText_accounts` puts this together with the cutting of the text :
the literal stretches stay, each marker is replaced or stays by its fate, and
the counts and diagnostics are those of the fates.
-/

namespace SpellText

/-- What becomes of a placeholder. -/
inductive Fate
  /-- The resource name takes its place; nothing is counted. -/
  | resource (name : String)
  /-- Its answer takes its place. -/
  | answered (text : String)
  /-- It stays and is not reported. -/
  | passedOver
  /-- It stays and is reported. -/
  | failed (d : Diagnostic)

namespace Fate

/-- The text that takes the place of the marker. -/
def text? : Fate → Option String
  | resource name => some name
  | answered text => some text
  | passedOver => none
  | failed _ => none

/-- What is counted. -/
def tally : Fate → Tally
  | resource _ => .empty
  | answered _ => ⟨1, 0, []⟩
  | passedOver => ⟨0, 1, []⟩
  | failed d => ⟨0, 1, [d]⟩

/-- The marker is counted as replaced. -/
def isAnswered : Fate → Bool
  | answered _ => true
  | _ => false

/-- The marker is counted as skipped. -/
def isSkipped : Fate → Bool
  | passedOver => true
  | failed _ => true
  | _ => false

/-- The report of the marker. -/
def report? : Fate → Option Diagnostic
  | failed d => some d
  | _ => none

/-- A marker has no text if and only if it is skipped. -/
theorem text?_eq_none_iff {f : Fate} : f.text? = none ↔ f.isSkipped = true := by
  cases f <;> simp [text?, isSkipped]

end Fate

namespace Tally

/-- The tallies one after the other. -/
def sum (ts : List Tally) : Tally := ts.foldr (· ++ ·) empty

@[simp] theorem sum_nil : sum [] = empty := rfl

@[simp] theorem sum_cons (t : Tally) (ts : List Tally) : sum (t :: ts) = t ++ sum ts := rfl

/-- As many markers are replaced as are answered. -/
theorem replaced_sum_fates (fs : List Fate) :
    (sum (fs.map Fate.tally)).replaced = fs.countP Fate.isAnswered := by
  induction fs with
  | nil => rfl
  | cons f fs ih =>
    rw [List.map_cons, sum_cons, replaced_append, ih, List.countP_cons, Nat.add_comm]
    cases f <;> rfl

/-- As many markers are counted as skipped as are. -/
theorem skipped_sum_fates (fs : List Fate) :
    (sum (fs.map Fate.tally)).skipped = fs.countP Fate.isSkipped := by
  induction fs with
  | nil => rfl
  | cons f fs ih =>
    rw [List.map_cons, sum_cons, skipped_append, ih, List.countP_cons, Nat.add_comm]
    cases f <;> rfl

theorem errors_sum_fates (fs : List Fate) :
    (sum (fs.map Fate.tally)).errors = fs.filterMap Fate.report? := by
  induction fs with
  | nil => rfl
  | cons f fs ih =>
    rw [List.map_cons, sum_cons, errors_append, ih]
    cases f <;> rfl

end Tally

namespace Context

/-- What becomes of a placeholder. An expression without an ability and an
expression that is too complex are passed over, every other fault is reported
under the names of the champion and the ability. -/
def fate (x : Context) (placeholder : List Char) : Fate :=
  if isResourceName placeholder then .resource (x.champion.resourceName x.locale)
  else match (Request.ofChars placeholder).answer? x.champion x.ability with
    | none => .passedOver
    | some (.ok text) => .answered text
    | some (.error f) =>
      match f.severity with
      | .skip => .passedOver
      | .failure =>
        .failed ⟨x.champion.name, x.abilityName, String.ofList placeholder, f.message⟩

/-- The text that takes the place of a marker, if there is one. -/
def replacement? (x : Context) (inner : List Char) : Option (List Char) :=
  (x.fate (Text.trim inner)).text?.map String.toList

/-- What stands in the place of a marker afterwards : its replacement, or the marker. -/
def replacement (x : Context) (inner : List Char) : List Char :=
  (x.replacement? inner).getD (Piece.marker inner).chars

/-- The fates of markers, given what stands between their braces. -/
def fates (x : Context) (inners : List (List Char)) : List Fate :=
  inners.map fun inner => x.fate (Text.trim inner)

/-! ## Texts -/

/-- A placeholder is resolved by its fate. -/
theorem resolve_eq (x : Context) (placeholder : List Char) (t : Tally) :
    x.resolve placeholder t = ((x.fate placeholder).text?, t ++ (x.fate placeholder).tally) := by
  unfold resolve fate
  split
  · rw [Fate.text?, Fate.tally, Tally.append_empty]
  · cases (Request.ofChars placeholder).answer? x.champion x.ability with
    | none => rw [record, Tally.countSkipped_eq, Fate.text?, Fate.tally]
    | some answer =>
      cases answer with
      | ok text => rw [record, Tally.countReplaced_eq, Fate.text?, Fate.tally]
      | error f =>
        simp only [record]
        cases f.severity with
        | skip => rw [Tally.countSkipped_eq, Fate.text?, Fate.tally]
        | failure => rw [Tally.countFailure_eq, Fate.text?, Fate.tally, diagnostic]

/-- A marker is replaced and counted by its fate. -/
theorem fillPiece_marker (x : Context) (inner : List Char) (t : Tally) :
    x.fillPiece (.marker inner) t
      = (x.replacement inner, t ++ (x.fate (Text.trim inner)).tally) := by
  rw [fillPiece, resolve_eq, replacement, replacement?]
  cases (x.fate (Text.trim inner)).text? <;> rfl

/-- Pieces are filled in one by one, and their tallies add up. -/
theorem fillPieces_eq (x : Context) : ∀ (ps : List Piece) (t : Tally),
    x.fillPieces ps t = ((Cutting.ofPieces ps).fill x.replacement,
      t ++ .sum ((x.fates (Cutting.ofPieces ps).inners).map Fate.tally))
  | [], t => by
    rw [fillPieces]
    simp [Cutting.ofPieces, Cutting.fill, Cutting.inners, fates]
  | .literal c :: ps, t => by
    rw [fillPieces_cons, fillPieces_eq x ps]
    simp [fillPiece, Cutting.ofPieces, Cutting.fill, Cutting.inners]
  | .marker inner :: ps, t => by
    rw [fillPieces_cons, fillPiece_marker, fillPieces_eq x ps]
    simp [Cutting.ofPieces, Cutting.fill, Cutting.inners, fates, Tally.append_assoc]

/-- A text is filled in along its cutting. -/
theorem fillText_eq (x : Context) {text : String} {c : Cutting} (h : c.IsOf text.toList)
    (t : Tally) :
    x.fillText text t = (String.ofList (c.fill x.replacement),
      t ++ .sum ((x.fates c.inners).map Fate.tally)) := by
  rw [h.unique (Cutting.isOf_ofPieces text.toList), fillText, fillPieces_eq]

/-! ## Single markers -/

/-- The name of the resource is answered by that of the champion in the locale. -/
theorem fate_resource (x : Context) {placeholder : List Char}
    (h : isResourceName placeholder = true) :
    x.fate placeholder = .resource (x.champion.resourceName x.locale) := by
  rw [fate, if_pos h]

/-- What the fate of a placeholder other than the resource name can be. -/
theorem fate_cases (x : Context) {placeholder : List Char}
    (h : isResourceName placeholder = false) :
    (∃ text, x.fate placeholder = .answered text ∧ NoBrace text.toList) ∨
      (x.fate placeholder).isSkipped = true := by
  rw [fate, if_neg (by simp [h])]
  split
  · exact Or.inr rfl
  · next text ha => exact Or.inl ⟨text, rfl, Request.noBrace_of_answer? ha⟩
  · split <;> exact Or.inr rfl

/-- Every marker is counted once, as replaced or as skipped, but for the resource name. -/
theorem count_fate (x : Context) (placeholder : List Char) :
    (if (x.fate placeholder).isAnswered then 1 else 0)
        + (if (x.fate placeholder).isSkipped then 1 else 0)
      = if !isResourceName placeholder then 1 else 0 := by
  cases h : isResourceName placeholder with
  | true =>
    rw [fate_resource x h]
    rfl
  | false =>
    rcases fate_cases x h with ⟨text, hf, -⟩ | hf
    · rw [hf]
      rfl
    · cases hx : x.fate placeholder <;> rw [hx] at hf <;> first | rfl | cases hf

/-- The markers that are counted are those other than the resource name. -/
theorem countP_fates (x : Context) (inners : List (List Char)) :
    (x.fates inners).countP Fate.isAnswered + (x.fates inners).countP Fate.isSkipped
      = (inners.map Text.trim).countP (!isResourceName ·) := by
  induction inners with
  | nil => rfl
  | cons inner inners ih =>
    have h := x.count_fate (Text.trim inner)
    simp only [fates, List.map_cons, List.countP_cons] at ih ⊢
    omega

/-- Other than the resource name, markers stay if and only if they are counted as skipped. -/
theorem replacement_eq_chars_iff (x : Context) {inner : List Char}
    (h : isResourceName (Text.trim inner) = false) :
    x.replacement inner = (Piece.marker inner).chars ↔
      (x.fate (Text.trim inner)).isSkipped = true := by
  rw [← Fate.text?_eq_none_iff, replacement, replacement?]
  cases hx : (x.fate (Text.trim inner)).text? with
  | none => simp
  | some text =>
    refine ⟨fun he => ?_, fun hs => by cases hs⟩
    -- A replacement has no braces, but the marker has.
    rcases fate_cases x h with ⟨answer, hf, ha⟩ | hf
    · rw [hf] at hx
      cases hx
      change text.toList = (Piece.marker inner).chars at he
      have := ha '\x7b' (by rw [he]; exact List.mem_cons_self)
      exact absurd this (by decide)
    · rw [Fate.text?_eq_none_iff.2 hf] at hx
      cases hx

/-! ## Texts with all their markers -/

/-- A text is cut at its markers in one way. The literal stretches stay, a marker
gives way to the text of its fate, and counts and reports are those of the
fates : the resource name is replaced and not counted, another marker stays if
and only if it is counted as skipped. -/
theorem fillText_accounts (x : Context) (text : String) (t : Tally) :
    ∃ c : Cutting, c.IsOf text.toList ∧ (∀ c' : Cutting, c'.IsOf text.toList → c' = c) ∧
      (x.fillText text t).1.toList = c.fill x.replacement ∧
      (x.fillText text t).2.replaced = t.replaced + (x.fates c.inners).countP Fate.isAnswered ∧
      (x.fillText text t).2.skipped = t.skipped + (x.fates c.inners).countP Fate.isSkipped ∧
      (x.fillText text t).2.replaced + (x.fillText text t).2.skipped
        = t.replaced + t.skipped + (c.inners.map Text.trim).countP (!isResourceName ·) ∧
      (x.fillText text t).2.errors = t.errors ++ (x.fates c.inners).filterMap Fate.report? ∧
      ∀ inner ∈ c.inners,
        if isResourceName (Text.trim inner) then
          x.replacement inner = (x.champion.resourceName x.locale).toList ∧
            (x.fate (Text.trim inner)).tally = .empty
        else
          (x.replacement inner = (Piece.marker inner).chars ↔
            (x.fate (Text.trim inner)).isSkipped = true) := by
  have hc := Cutting.isOf_ofPieces text.toList
  refine ⟨_, hc, fun c' hc' => hc'.unique hc, ?_⟩
  rw [x.fillText_eq hc t]
  refine ⟨String.toList_ofList, ?_, ?_, ?_, ?_, fun inner _ => ?_⟩
  · rw [Tally.replaced_append, Tally.replaced_sum_fates]
  · rw [Tally.skipped_append, Tally.skipped_sum_fates]
  · rw [Tally.replaced_append, Tally.skipped_append, Tally.replaced_sum_fates,
      Tally.skipped_sum_fates, ← x.countP_fates]
    omega
  · rw [Tally.errors_append, Tally.errors_sum_fates]
  · split
    · next h =>
      rw [replacement, replacement?, x.fate_resource h]
      exact ⟨rfl, rfl⟩
    · next h => exact x.replacement_eq_chars_iff (by simpa using h)

end Context

end SpellText
