import SpellText.Proofs.Keys
import SpellText.Proofs.LetterCase.Reading
import SpellText.Substitution

/-!
# Placeholders in letters of either case

Placeholders that differ only in the case of ASCII letters have the same outcome
(`Context.resolve_sameLetters`) : the same text takes the place of both, or both are
passed over, or both fail with faults of the same code. Faults quote the placeholder, so
they may differ in the letters of their messages; outcomes are therefore compared by code
(`Fault.coded`).

Each text has the outcome of the text with small letters. The request is the same up to
the case of letters (`Request.ofChars_toLower`), a reference leads to the same ability
because keys do not depend on case, and the names in an expression mean the same, in
formulas as well.
-/

namespace SpellText

/-! ## Outcomes by code -/

namespace Fault

/-- The outcome with nothing but the code of a fault. -/
def coded {α : Type} (x : Except Fault α) : Except String α := x.mapError code

section

variable {α β : Type} {x y : Except Fault α}

/-- The same value, or faults of the same code. -/
theorem coded_eq_iff : coded x = coded y ↔
    (∃ a, x = .ok a ∧ y = .ok a) ∨ ∃ f g, x = .error f ∧ y = .error g ∧ f.code = g.code := by
  cases x <;> cases y <;> simp [coded, Except.mapError, eq_comm]

/-- Results with the same codes have the same behind steps that have. -/
theorem coded_bind_congr {k k' : α → Except Fault β} (h : coded x = coded y)
    (hk : ∀ a, coded (k a) = coded (k' a)) : coded (x >>= k) = coded (y >>= k') := by
  rcases coded_eq_iff.1 h with ⟨a, rfl, rfl⟩ | ⟨f, g, rfl, rfl, hfg⟩
  · exact hk a
  · exact congrArg Except.error hfg

theorem coded_map_congr (f : α → β) (h : coded x = coded y) :
    coded (x.map f) = coded (y.map f) := by
  rcases coded_eq_iff.1 h with ⟨a, rfl, rfl⟩ | ⟨e, e', rfl, rfl, he⟩
  · rfl
  · exact congrArg Except.error he

end

/-- Faults of the same code are as severe. -/
theorem severity_eq_of_code {f g : Fault} (h : f.code = g.code) : f.severity = g.severity := by
  have hcode : ∀ f : Fault,
      f.severity = if f.code = "RESOLVE_COMPLEX_EXPRESSION" then .skip else .failure := by
    intro f
    cases f <;> rfl
  rw [hcode f, hcode g, h]

end Fault

open Fault (coded coded_eq_iff coded_bind_congr coded_map_congr)

/-! ## Names and expressions -/

namespace Ability

variable {a : Ability} {stats : BaseStats} {name : String}

/-- A name means the same in lower case. -/
theorem meaning_toLower : a.meaning stats name.toLower = a.meaning stats name := by
  rw [meaning, Text.trimmed_toLower, Text.lowercased_toLower, meaning]

/-- A name has the same amount in letters of either case, or faults of the same code. -/
theorem coded_amountWithin_toLower (levels : Nat) :
    coded (a.amountWithin stats levels name.toLower)
      = coded (a.amountWithin stats levels name) := by
  cases levels <;>
  · rw [amountWithin, amountWithin, amountWith, amountWith, meaning_toLower]
    cases a.meaning stats name <;> rfl

end Ability

namespace Expr

variable {lookup : Formula.Lookup} (h : ∀ name, coded (lookup name.toLower) = coded (lookup name))
include h

/-- Where the case of names does not matter, that of the letters in a tree does not. -/
theorem coded_evaluate_toLower : ∀ e : Expr,
    coded (e.toLower.evaluate lookup) = coded (e.evaluate lookup)
  | number _ | call _ _ => rfl
  | name s => h s
  | signed _ e => coded_bind_congr (coded_evaluate_toLower e) fun _ => rfl
  | binary op l r =>
    coded_bind_congr (coded_evaluate_toLower l) fun a =>
      coded_bind_congr (coded_evaluate_toLower r) fun b => by
        cases op.result? a b <;> rfl

/-- An expression in lower case evaluates to the same, or fails by the same code. -/
theorem coded_evaluateText_toLower (source : String) :
    coded (evaluateText lookup source.toLower) = coded (evaluateText lookup source) := by
  have hp := parse_toLower source
  unfold evaluateText
  cases hs : parse source with
  | error error =>
    cases hl : parse source.toLower with
    | error error' => rfl
    | ok e => simp [hs, hl, Except.toOption] at hp
  | ok e =>
    cases hl : parse source.toLower with
    | error error => simp [hs, hl, Except.toOption] at hp
    | ok e' =>
      obtain rfl : e' = e.toLower := by simpa [hs, hl, Except.toOption] using hp
      dsimp only
      rw [isCalculated_toLower]
      split
      · exact coded_evaluate_toLower h e
      · rfl

end Expr

/-! ## Requests -/

/-- A reference in lower case leads to the same ability. -/
theorem Champion.findAbility?_toLower (c : Champion) (reference : String) :
    c.findAbility? reference.toLower = c.findAbility? reference := by
  simp only [findAbility?, Name.Spelling.key_toLower]

namespace Request

/-- The request with small letters. -/
def toLower : Request → Request
  | expression source => expression source.toLower
  | refer reference inner => refer reference.toLower inner.toLower
  | malformed text => malformed text.toLower

theorem afterReferenceStart_toLower (s : List Char) :
    afterReferenceStart? (s.map Char.toLower)
      = (afterReferenceStart? s).map (List.map Char.toLower) := by
  rw [afterReferenceStart?, ← List.map_take, Text.sameLetters_toLower, afterReferenceStart?]
  split
  · rw [Option.map_some, List.map_drop]
  · rfl

theorem splitColon_toLower (s : List Char) :
    splitColon? (s.map Char.toLower)
      = (splitColon? s).map fun p => (p.1.map Char.toLower, p.2.map Char.toLower) := by
  induction s with
  | nil => rfl
  | cons c s ih =>
    rw [List.map_cons, splitColon?, splitColon?, ih]
    simp only [Text.toLower_eq_iff (d := ':') rfl]
    split
    · rfl
    · cases splitColon? s <;> rfl

/-- A request in lower case is the request with its parts in lower case. -/
theorem ofTrimmed_toLower (s : List Char) :
    ofTrimmed (s.map Char.toLower) = (ofTrimmed s).toLower := by
  induction s using ofTrimmed.induct with
  | case1 s h =>
    rw [ofTrimmed_eq_match, afterReferenceStart_toLower, ofTrimmed_eq_match s, h]
    exact congrArg expression (Text.ofList_toLower s)
  | case2 s tail h h' =>
    rw [ofTrimmed_eq_match, afterReferenceStart_toLower, ofTrimmed_eq_match s, h]
    simp only [Option.map_some, splitColon_toLower, h', Option.map_none]
    exact congrArg malformed (Text.ofList_toLower tail)
  | case3 s tail h reference inner h' ih =>
    rw [ofTrimmed_eq_match, afterReferenceStart_toLower, ofTrimmed_eq_match s, h]
    simp only [Option.map_some, splitColon_toLower, h']
    rw [Text.trimStart_toLower, ih, Text.ofList_toLower, toLower]

/-- A text with small letters is the same request, with small letters. -/
theorem ofChars_toLower (s : List Char) : ofChars (s.map Char.toLower) = (ofChars s).toLower := by
  rw [ofChars, afterReferenceStart_toLower, ofChars]
  cases afterReferenceStart? s with
  | none => exact congrArg expression (Text.ofList_toLower s)
  | some tail =>
    dsimp only [Option.map_some]
    rw [splitColon_toLower]
    cases splitColon? tail with
    | none => exact congrArg malformed (Text.ofList_toLower tail)
    | some p =>
      dsimp only [Option.map_some]
      rw [Text.trim_toLower, ofTrimmed_toLower, Text.ofList_toLower, toLower]

theorem coded_expressionText_toLower (c : Champion) (a : Ability) (source : String) :
    coded (expressionText c a source.toLower) = coded (expressionText c a source) :=
  coded_map_congr Amount.text
    (Expr.coded_evaluateText_toLower (fun _ => Ability.coded_amountWithin_toLower _) source)

/-- A request has the same answer in letters of either case, or faults of the same code. -/
theorem coded_text_toLower (c : Champion) : ∀ (r : Request) (a : Ability),
    coded (r.toLower.text c a) = coded (r.text c a)
  | expression source, a => coded_expressionText_toLower c a source
  | refer reference inner, _ => by
    rw [toLower, text, Champion.findAbility?_toLower, text]
    cases c.findAbility? reference with
    | some target => exact coded_text_toLower c inner target
    | none => rfl
  | malformed _, _ => rfl

/-- A request in lower case is answered alike. -/
theorem coded_answer_toLower (c : Champion) (a : Option Ability) (r : Request) :
    (r.toLower.answer? c a).map coded = (r.answer? c a).map coded := by
  cases r with
  | expression source =>
    cases a with
    | none => rfl
    | some a => exact congrArg some (coded_expressionText_toLower c a source)
  | refer reference inner =>
    rw [toLower, answer?, Champion.findAbility?_toLower, answer?]
    cases c.findAbility? reference with
    | some target => exact congrArg some (coded_text_toLower c inner target)
    | none => rfl
  | malformed text => rfl

end Request

/-! ## Placeholders -/

theorem isResourceName_toLower (s : List Char) :
    isResourceName (s.map Char.toLower) = isResourceName s :=
  Text.sameLetters_toLower s _

namespace Context

/-- Resolving two placeholders has the same outcome. -/
inductive SameOutcome (x : Context) (s t : List Char) (u : Tally) : Prop
  /-- The same text takes the place of both, and it is counted alike. -/
  | replaced (text : String) (v : Tally) :
    x.resolve s u = (some text, v) → x.resolve t u = (some text, v) → SameOutcome x s t u
  /-- Both stay and are not reported. -/
  | passedOver :
    x.resolve s u = (none, u.countSkipped) → x.resolve t u = (none, u.countSkipped) →
      SameOutcome x s t u
  /-- Both stay and are reported, with faults of the same code. -/
  | failed (f g : Fault) :
    (Request.ofChars s).answer? x.champion x.ability = some (.error f) →
      (Request.ofChars t).answer? x.champion x.ability = some (.error g) → f.code = g.code →
      x.resolve s u = (none, u.countFailure (x.diagnostic (String.ofList s) f)) →
      x.resolve t u = (none, u.countFailure (x.diagnostic (String.ofList t) g)) →
      SameOutcome x s t u

/-- Answers that are the same up to the wording of faults make for the same outcome. -/
theorem sameOutcome_of_coded (x : Context) {s t : List Char}
    (hr : isResourceName s = isResourceName t)
    (h : ((Request.ofChars s).answer? x.champion x.ability).map coded
      = ((Request.ofChars t).answer? x.champion x.ability).map coded) (u : Tally) :
    x.SameOutcome s t u := by
  cases hs : isResourceName s with
  | true =>
    refine .replaced (x.champion.resourceName x.locale) u ?_ ?_
    · rw [resolve, if_pos hs]
    · rw [resolve, if_pos (hr ▸ hs)]
  | false =>
    have hxs : x.resolve s u = x.record s ((Request.ofChars s).answer? x.champion x.ability) u := by
      rw [resolve, if_neg (by simp [hs])]
    have hxt : x.resolve t u = x.record t ((Request.ofChars t).answer? x.champion x.ability) u := by
      rw [resolve, if_neg (by simp [← hr, hs])]
    cases hfs : (Request.ofChars s).answer? x.champion x.ability with
    | none =>
      rw [hfs, Option.map_none, eq_comm, Option.map_eq_none_iff] at h
      exact .passedOver (by rw [hxs, hfs, record]) (by rw [hxt, h, record])
    | some answer =>
      rw [hfs, Option.map_some, eq_comm, Option.map_eq_some_iff] at h
      obtain ⟨answer', hft, ha⟩ := h
      rcases coded_eq_iff.1 ha with ⟨text, rfl, rfl⟩ | ⟨g, f, rfl, rfl, hcode⟩
      · exact .replaced text u.countReplaced (by rw [hxs, hfs, record]) (by rw [hxt, hft, record])
      · have hsev := Fault.severity_eq_of_code hcode
        cases hf : f.severity with
        | skip =>
          rw [hf] at hsev
          exact .passedOver (by rw [hxs, hfs, record]; simp [hf])
            (by rw [hxt, hft, record]; simp [hsev])
        | failure =>
          rw [hf] at hsev
          exact .failed f g hfs hft hcode.symm (by rw [hxs, hfs, record]; simp [hf])
            (by rw [hxt, hft, record]; simp [hsev])

/-- Placeholders that differ only in the case of ASCII letters have the same outcome, for
every champion, with an ability or without, and in every locale. -/
theorem resolve_sameLetters (x : Context) {s t : List Char} (h : Text.sameLetters s t = true)
    (u : Tally) : x.SameOutcome s t u := by
  have hl : s.map Char.toLower = t.map Char.toLower := Text.sameLetters_iff.1 h
  refine x.sameOutcome_of_coded ?_ ?_ u
  · rw [← isResourceName_toLower s, hl, isResourceName_toLower t]
  · rw [← Request.coded_answer_toLower, ← Request.ofChars_toLower, hl, Request.ofChars_toLower,
      Request.coded_answer_toLower]

theorem resolve_sameLetters_decoy :
    Text.sameLetters "Spell.MonkeyKing_Decoy:CoolDown*1E1".toList
        "sPELL.monkeyking_DECOY:cooldown*1e1".toList = true ∧
      SameOutcome
        ⟨.ofRecords "Wukong" (Champion.decoySheet none) Champion.decoyBundle .null, none, "en"⟩
        "Spell.MonkeyKing_Decoy:CoolDown*1E1".toList "sPELL.monkeyking_DECOY:cooldown*1e1".toList
        .empty :=
  ⟨by decide, resolve_sameLetters _ (by decide) .empty⟩

end Context

end SpellText
