import SpellText.Proofs.Keys
import SpellText.Proofs.LetterCase.Text
import SpellText.Substitution

/-!
# Chains of references

A request may pass through any number of references before it asks for something
(`chain`). The abilities on the way have no say in the answer : where all of them are known,
the last one answers the text behind the chain, and otherwise the answer is the first unknown
one. Nor has the ability at hand or the locale, so that a chain has one answer everywhere
(`Champion.Answers`), also where there is no ability at hand.

`Request.ofChars_chain` reads a chain off its text, link by link, and
`Champion.answers_chain` says what the champion answers.
-/

namespace SpellText

open Text (trim trimEnd trimStart sameLetters)

/-- The text `spell.r₁:spell.r₂:…spell.rₖ:` with a text behind it. -/
def chain (references : List String) (inner : List Char) : List Char :=
  references.foldr (fun r s => Request.referenceStart ++ (r.toList ++ ':' :: s)) inner

namespace Request

/-! ## Reading a chain -/

/-- A reference begins with its mark in any case of letters. -/
theorem afterReferenceStart?_append {start : List Char}
    (h : sameLetters start referenceStart = true) (s : List Char) :
    afterReferenceStart? (start ++ s) = some s := by
  have hlen : start.length = 6 := by
    simpa [referenceStart] using congrArg List.length (Text.sameLetters_iff.1 h)
  rw [afterReferenceStart?, List.take_left' hlen, List.drop_left' hlen, if_pos h]

theorem splitColon?_append {a : List Char} (ha : ':' ∉ a) (b : List Char) :
    splitColon? (a ++ ':' :: b) = some (a, b) := by
  induction a with
  | nil => rfl
  | cons c a ih =>
    rw [List.mem_cons, not_or] at ha
    rw [List.cons_append, splitColon?, if_neg (Ne.symm ha.1), ih ha.2]

theorem splitColon?_eq_none {a : List Char} (ha : ':' ∉ a) : splitColon? a = none := by
  induction a with
  | nil => rfl
  | cons c a ih =>
    rw [List.mem_cons, not_or] at ha
    rw [splitColon?, if_neg (Ne.symm ha.1), ih ha.2]

/-- A link of a chain. The text behind its colon is trimmed. -/
theorem ofChars_link {r : String} (hr : ':' ∉ r.toList) (s : List Char) :
    ofChars (referenceStart ++ (r.toList ++ ':' :: s)) = .refer r (ofChars (trim s)) := by
  have htrim : trimEnd (trim s) = trim s := Text.trimEnd_trimEnd (trimStart s)
  rw [ofChars, afterReferenceStart?_append (by decide)]
  dsimp only
  rw [splitColon?_append hr]
  dsimp only
  rw [String.ofList_toList, ofTrimmed_eq htrim]

/-- A reference without a colon. -/
theorem ofChars_malformed {start s : List Char} (h : sameLetters start referenceStart = true)
    (hs : ':' ∉ s) : ofChars (start ++ s) = .malformed (String.ofList s) := by
  rw [ofChars, afterReferenceStart?_append h]
  dsimp only
  rw [splitColon?_eq_none hs]

/-- Trimming a link trims the end of the text behind its colon. -/
theorem trim_link (r : String) (s : List Char) :
    trim (referenceStart ++ (r.toList ++ ':' :: s))
      = referenceStart ++ (r.toList ++ ':' :: trimEnd s) := by
  have hstart : ∀ t, trimStart (referenceStart ++ t) = referenceStart ++ t := fun _ => rfl
  rw [trim, hstart, ← List.append_assoc, Text.trimEnd_append_cons _ (by decide), List.append_assoc]

/-- The request of a chain that stands behind a colon. -/
theorem ofChars_trim_chain {rs : List String} (hc : ∀ r ∈ rs, ':' ∉ r.toList) (s : List Char) :
    ofChars (trim (chain rs s)) = rs.foldr .refer (ofChars (trim s)) := by
  induction rs with
  | nil => rfl
  | cons r rs ih =>
    rw [List.forall_mem_cons] at hc
    show ofChars (trim (referenceStart ++ (r.toList ++ ':' :: chain rs s))) = _
    -- The end of the chain is trimmed at every link, but once is as good as many times.
    rw [trim_link, ofChars_link hc.1, Text.trim_trimEnd, ih hc.2, List.foldr_cons]

/-- A chain asks the abilities in order, and the last one for the text behind the chain. -/
theorem ofChars_chain {rs : List String} (hne : rs ≠ []) (hc : ∀ r ∈ rs, ':' ∉ r.toList)
    (s : List Char) : ofChars (chain rs s) = rs.foldr .refer (ofChars (trim s)) := by
  cases rs with
  | nil => exact absurd rfl hne
  | cons r rs =>
    rw [List.forall_mem_cons] at hc
    show ofChars (referenceStart ++ (r.toList ++ ':' :: chain rs s)) = _
    rw [ofChars_link hc.1, ofChars_trim_chain hc.2, List.foldr_cons]

/-- A chain is not the word for the resource name. -/
theorem isResourceName_chain {rs : List String} (hne : rs ≠ []) (s : List Char) :
    isResourceName (chain rs s) = false := by
  cases rs with
  | nil => exact absurd rfl hne
  | cons r rs => rfl

/-! ## Answering along a chain -/

variable {c : Champion} {r : String} {rs : List String} {target : Ability}

/-- With an ability at hand every request has an answer. -/
theorem answer?_some (q : Request) (a : Ability) : q.answer? c (some a) = some (q.text c a) := by
  cases q with
  | expression source => rfl
  | refer r q =>
    rw [answer?, text]
    cases c.findAbility? r <;> rfl
  | malformed text => rfl

/-- A reference is answered in the context of its ability. -/
theorem answer?_refer (h : c.findAbility? r = some target) (q : Request) (a : Option Ability) :
    (refer r q).answer? c a = some (q.text c target) := by
  rw [answer?, h]

/-- A reference to no ability is answered by an error. -/
theorem answer?_refer_unknown (h : c.findAbility? r = none) (q : Request) (a : Option Ability) :
    (refer r q).answer? c a = some (.error (.unknownReference r)) := by
  rw [answer?, h]

/-- Known abilities pass a request on to the last of them. -/
theorem answer?_foldr_refer (hne : rs ≠ []) (hk : ∀ r ∈ rs, (c.findAbility? r).isSome = true)
    (h : c.findAbility? (rs.getLast hne) = some target) (q : Request) (a : Option Ability) :
    (rs.foldr .refer q).answer? c a = some (q.text c target) := by
  induction rs generalizing a with
  | nil => exact absurd rfl hne
  | cons r rs ih =>
    rw [List.forall_mem_cons] at hk
    obtain ⟨next, hn⟩ := Option.isSome_iff_exists.1 hk.1
    rw [List.foldr_cons, answer?_refer hn]
    by_cases hrs : rs = []
    · subst hrs
      rw [List.getLast_singleton, hn] at h
      rw [List.foldr_nil, Option.some.inj h]
    · rw [List.getLast_cons hrs] at h
      rw [← answer?_some, ih hrs hk.2 h]

/-- Behind known abilities an unknown one is the answer. -/
theorem answer?_foldr_refer_unknown {front : List String}
    (hk : ∀ r ∈ front, (c.findAbility? r).isSome = true) (h : c.findAbility? r = none)
    (q : Request) (a : Option Ability) :
    ((front ++ r :: rs).foldr .refer q).answer? c a = some (.error (.unknownReference r)) := by
  induction front generalizing a with
  | nil => exact answer?_refer_unknown h _ a
  | cons next front ih =>
    rw [List.forall_mem_cons] at hk
    obtain ⟨b, hb⟩ := Option.isSome_iff_exists.1 hk.1
    rw [List.cons_append, List.foldr_cons, answer?_refer hb, ← answer?_some, ih hk.2]

end Request

namespace Champion

/-- The champion has one answer to a placeholder, whichever ability is at hand, if any, and
in every locale. -/
structure Answers (c : Champion) (placeholder : List Char) (answer : Except Fault String) :
    Prop where
  to_ability : ∀ a, (Request.ofChars placeholder).text c a = answer
  anywhere : ∀ ability locale t, Context.resolve ⟨c, ability, locale⟩ placeholder t
    = Context.record ⟨c, ability, locale⟩ placeholder (some answer) t

section

variable {c : Champion} {rs : List String} {inner : List Char}

/-- A chain that is answered alike in all contexts answers so. -/
theorem answers_of_answer? {answer : Except Fault String} (hne : rs ≠ [])
    (h : ∀ a, (Request.ofChars (chain rs inner)).answer? c a = some answer) :
    c.Answers (chain rs inner) answer where
  to_ability a := Option.some.inj ((Request.answer?_some _ a).symm.trans (h (some a)))
  anywhere ability locale t := by
    have hr := Request.isResourceName_chain hne inner
    rw [Context.resolve, if_neg (Bool.eq_false_iff.1 hr), h]

/-- A chain of known references is answered in the context of the last. -/
theorem answers_chain_known (hne : rs ≠ []) (hc : ∀ r ∈ rs, ':' ∉ r.toList)
    (hk : ∀ r ∈ rs, (c.findAbility? r).isSome = true) {target : Ability}
    (h : c.findAbility? (rs.getLast hne) = some target) :
    c.Answers (chain rs inner) ((Request.ofChars (trim inner)).text c target) := by
  refine answers_of_answer? hne fun a => ?_
  rw [Request.ofChars_chain hne hc, Request.answer?_foldr_refer hne hk h]

/-- The first unknown reference of a chain is its error. -/
theorem answers_chain_unknown {front back : List String} {r : String}
    (hc : ∀ r' ∈ front ++ r :: back, ':' ∉ r'.toList)
    (hk : ∀ r' ∈ front, (c.findAbility? r').isSome = true) (h : c.findAbility? r = none) :
    c.Answers (chain (front ++ r :: back) inner) (.error (.unknownReference r)) := by
  have hne : front ++ r :: back ≠ [] := by simp
  refine answers_of_answer? hne fun a => ?_
  rw [Request.ofChars_chain hne hc, Request.answer?_foldr_refer_unknown hk h]

/-- What a champion answers to a chain of references : where it knows all of them, what the
ability of the last one answers to the text behind the chain, and otherwise that it does not
know the first unknown one. A reference without a colon behind known ones is malformed. -/
theorem answers_chain (c : Champion) {rs : List String} (hne : rs ≠ [])
    (hc : ∀ r ∈ rs, ':' ∉ r.toList) (inner : List Char) :
    ((∀ r ∈ rs, (c.findAbility? r).isSome = true) →
      (∃ target, c.findAbility? (rs.getLast hne) = some target ∧
        c.Answers (chain rs inner) ((Request.ofChars (trim inner)).text c target)) ∧
      ∀ start y, trim inner = start ++ y → sameLetters start Request.referenceStart = true →
        ':' ∉ y → c.Answers (chain rs inner)
          (.error (.malformedReference ("spell." ++ String.ofList y)))) ∧
    ∀ front r back, rs = front ++ r :: back →
      (∀ r' ∈ front, (c.findAbility? r').isSome = true) → c.findAbility? r = none →
        c.Answers (chain rs inner) (.error (.unknownReference r)) := by
  refine ⟨fun hk => ?_, ?_⟩
  · obtain ⟨target, ht⟩ := Option.isSome_iff_exists.1 (hk _ (List.getLast_mem hne))
    have hknown : c.Answers (chain rs inner) _ := answers_chain_known hne hc hk ht
    refine ⟨⟨target, ht, hknown⟩, fun start y hy hstart hcolon => ?_⟩
    rwa [hy, Request.ofChars_malformed hstart hcolon, Request.text] at hknown
  · rintro front r back rfl hk h
    exact answers_chain_unknown hc hk h

end

/-- A champion with a single ability. -/
def decoyChampion : Champion := ofRecords "Wukong" (decoySheet none) decoyBundle .null

theorem answers_chain_decoy :
    (["Q", "MonkeyKing_Decoy"] ≠ [] ∧ ∀ r ∈ ["Q", "MonkeyKing_Decoy"], ':' ∉ r.toList) ∧
      (∃ target, decoyChampion.findAbility? "MonkeyKing_Decoy" = some target ∧
        decoyChampion.Answers "spell.Q:spell.MonkeyKing_Decoy: cooldown ".toList
          ((Request.ofChars "cooldown".toList).text decoyChampion target)) ∧
      decoyChampion.Answers "spell.Q:spell.MonkeyKing_Decoy:Spell.w".toList
        (.error (.malformedReference "spell.w")) ∧
      decoyChampion.Answers "spell.Q:spell.w:cooldown".toList (.error (.unknownReference "w")) := by
  have hknown : ∀ r ∈ ["Q", "MonkeyKing_Decoy"],
      (decoyChampion.findAbility? r).isSome = true := by decide +kernel
  have hfirst : ∀ r ∈ ["Q"], (decoyChampion.findAbility? r).isSome = true :=
    fun r hr => hknown r (List.mem_cons.2 (.inl (List.mem_singleton.1 hr)))
  have hw : decoyChampion.findAbility? "w" = none :=
    Option.isNone_iff_eq_none.1 (by decide +kernel)
  refine ⟨⟨by decide, by decide⟩, ?_, ?_, ?_⟩
  · exact ((answers_chain decoyChampion (by decide) (by decide) " cooldown ".toList).1 hknown).1
  · exact ((answers_chain decoyChampion (by decide) (by decide) "Spell.w".toList).1 hknown).2
      "Spell.".toList "w".toList (by decide) (by decide) (by decide)
  · have hne : ["Q", "w"] ≠ [] := by decide
    exact (answers_chain decoyChampion hne (by decide) "cooldown".toList).2 ["Q"] "w" [] rfl
      hfirst hw

end Champion

end SpellText
