import SpellText.Proofs.Lookups
import SpellText.Proofs.PartSums

/-!
# Labels of stats

A part that scales with a stat stands under the label of the first hint that occurs in its
name, and else under the letters and digits of the name. No label of a hint is made of small
letters and digits only (`Formula.not_isSlug_label`), so that a label tells which hint it came
from (`Formula.scalingLabel_eq_label_iff`).

Two things do not hold. A name without letters and digits has the empty label, which is that
of the flat part : its part adds to the flat part of a sum (`Formula.exists_flat_stat`), and
`Formula.flat_without_shares` says that no other does. And of two hints where one holds the
other, the shorter is tried first : the hint of maximum health is never reached, as the one of
health always occurs with it (`Formula.scalingLabel_nested`).
-/

namespace SpellText

open Text (lowercase)

namespace Formula

/-! ## Fragments of names -/

/-- A fragment occurs in a text if it is an infix of it. -/
theorem occursIn_iff {fragment s : List Char} : occursIn fragment s = true ↔ fragment <:+: s := by
  induction s with
  | nil => rw [occursIn, List.isEmpty_iff, List.infix_nil]
  | cons c s ih =>
    rw [occursIn, Bool.or_eq_true, List.isPrefixOf_iff_prefix, ih, List.infix_cons_iff]

/-- A text holds the fragments of its fragments. -/
theorem occursIn_trans {fragment part s : List Char} (h : occursIn fragment part = true)
    (hs : occursIn part s = true) : occursIn fragment s = true :=
  occursIn_iff.2 ((occursIn_iff.1 h).trans (occursIn_iff.1 hs))

/-- The hint occurs in the name. -/
def IsHintIn (name : String) (hint : String × String) : Prop :=
  hint ∈ scalingHints ∧ occursIn hint.1.toList (lowercase name.toList) = true

instance (name : String) (hint : String × String) : Decidable (IsHintIn name hint) :=
  inferInstanceAs (Decidable (_ ∧ _))

/-- The hints that are tried before a hint. -/
def hintsBefore (hint : String × String) : List (String × String) :=
  scalingHints.takeWhile (· ≠ hint)

/-! ## Labels -/

section

variable {name : String} {hint : String × String}

/-- No label of a hint is made of small letters and digits only. -/
theorem not_isSlug_label (h : hint ∈ scalingHints) : ¬ Name.IsSlug hint.2 := by
  have hall : ∀ hint ∈ scalingHints, ¬ Name.IsSlug hint.2 := by decide
  exact hall hint h

/-- Different hints have different labels. -/
theorem eq_of_label_eq {other : String × String} (h : hint ∈ scalingHints)
    (ho : other ∈ scalingHints) (hl : hint.2 = other.2) : hint = other := by
  have hall : ∀ hint ∈ scalingHints, ∀ other ∈ scalingHints, hint.2 = other.2 → hint = other := by
    decide
  exact hall hint h other ho hl

/-- A hint stands behind those that are tried before it. -/
theorem exists_hints_behind (h : hint ∈ scalingHints) :
    ∃ behind, scalingHints = hintsBefore hint ++ hint :: behind := by
  have hall : ∀ hint ∈ scalingHints, scalingHints
      = hintsBefore hint ++ hint :: (scalingHints.dropWhile (· ≠ hint)).tail := by decide
  exact ⟨_, hall hint h⟩

/-- Where no hint occurs, the letters and digits of the name are the label. -/
theorem scalingLabel_of_no_hint (h : ∀ hint, ¬ IsHintIn name hint) :
    scalingLabel name = Name.slug name := by
  have hnone : scalingHints.find? (fun hint =>
      occursIn hint.1.toList (lowercase name.toList)) = none :=
    List.find?_eq_none.2 fun hint hm ho => h hint ⟨hm, ho⟩
  simp only [scalingLabel, hnone, Name.camelLower_eq_slug]

/-- The label is that of the first hint that occurs, if one does. -/
theorem scalingLabel_of_hint (h : IsHintIn name hint)
    (hb : ∀ other ∈ hintsBefore hint, ¬ IsHintIn name other) : scalingLabel name = hint.2 := by
  obtain ⟨behind, hs⟩ := exists_hints_behind h.1
  have hfind : scalingHints.find? (fun hint =>
      occursIn hint.1.toList (lowercase name.toList)) = some hint := by
    refine List.find?_eq_some_iff_append.2 ⟨h.2, hintsBefore hint, behind, hs, fun other ho => ?_⟩
    rw [Bool.not_eq_true', ← Bool.not_eq_true]
    exact fun hin => hb other ho ⟨hs ▸ List.mem_append_left _ ho, hin⟩
  simp only [scalingLabel, hfind]

/-- A name has no hint, or a first one. -/
theorem exists_first_hint (name : String) : (∀ hint, ¬ IsHintIn name hint) ∨
    ∃ hint, IsHintIn name hint ∧ ∀ other ∈ hintsBefore hint, ¬ IsHintIn name other := by
  cases h : scalingHints.find? fun hint => occursIn hint.1.toList (lowercase name.toList) with
  | none => exact .inl fun hint hin => List.find?_eq_none.1 h hint hin.1 hin.2
  | some hint =>
    obtain ⟨ho, before, behind, hs, hb⟩ := List.find?_eq_some_iff_append.1 h
    refine .inr ⟨hint, ⟨List.mem_of_find?_eq_some h, ho⟩, fun other hm hin => ?_⟩
    have hother : other ∈ before := by
      rw [hintsBefore, hs, List.takeWhile_append, List.takeWhile_cons_of_neg (by simp),
        List.append_nil] at hm
      split at hm
      · exact hm
      · exact (List.takeWhile_sublist _).mem hm
    have := hb other hother
    rw [hin.2] at this
    cases this

/-- A name has the label of a hint if and only if the hint occurs in it and none that is
tried before. -/
theorem scalingLabel_eq_label_iff (h : hint ∈ scalingHints) : scalingLabel name = hint.2 ↔
    IsHintIn name hint ∧ ∀ other ∈ hintsBefore hint, ¬ IsHintIn name other := by
  refine ⟨fun hl => ?_, fun ⟨hin, hb⟩ => scalingLabel_of_hint hin hb⟩
  rcases exists_first_hint name with hno | ⟨first, hin, hb⟩
  · rw [scalingLabel_of_no_hint hno] at hl
    exact absurd (hl ▸ Name.isSlug_slug name) (not_isSlug_label h)
  · obtain rfl := eq_of_label_eq hin.1 h ((scalingLabel_of_hint hin hb).symm.trans hl)
    exact ⟨hin, hb⟩

/-- A name with a hint in it has letters. -/
theorem IsHintIn.slug_ne_empty (h : IsHintIn name hint) : Name.slug name ≠ "" := by
  have hall : ∀ hint ∈ scalingHints, hint.1.toList.filter Name.isKeyChar ≠ [] := by decide
  intro hs
  have hnil : (lowercase name.toList).filter Name.isKeyChar = [] := by
    rw [← String.toList_ofList (l := (lowercase name.toList).filter Name.isKeyChar)]
    exact congrArg String.toList hs
  have hsub := ((occursIn_iff.1 h.2).sublist.filter Name.isKeyChar)
  rw [hnil] at hsub
  exact hall hint h.1 (List.sublist_nil.1 hsub)

/-- The label is empty if and only if the name has neither letters nor digits. -/
theorem scalingLabel_eq_flatLabel_iff :
    scalingLabel name = Amount.flatLabel ↔ Name.slug name = "" := by
  rcases exists_first_hint name with hno | ⟨hint, hin, hb⟩
  · rw [scalingLabel_of_no_hint hno]
    rfl
  · rw [scalingLabel_of_hint hin hb]
    refine iff_of_false (fun hl => not_isSlug_label hin.1 ?_) hin.slug_ne_empty
    rw [hl]
    rfl

end

/-! ## Hints that hold each other -/

/-- There is one pair of hints where one holds the other. -/
theorem eq_of_nested {short long : String × String} (hs : short ∈ scalingHints)
    (hl : long ∈ scalingHints) (hne : short ≠ long)
    (ho : occursIn short.1.toList long.1.toList = true) :
    short = ("hp", "Health") ∧ long = ("maxhp", "max Health") := by
  have hall : ∀ short ∈ scalingHints, ∀ long ∈ scalingHints, short ≠ long →
      occursIn short.1.toList long.1.toList = true →
        short = ("hp", "Health") ∧ long = ("maxhp", "max Health") := by decide
  exact hall short hs long hl hne ho

/-- A hint that holds one tried before is never reached. -/
theorem scalingLabel_ne_of_nested {name : String} {short long : String × String}
    (hl : long ∈ scalingHints) (hs : short ∈ hintsBefore long)
    (ho : occursIn short.1.toList long.1.toList = true) : scalingLabel name ≠ long.2 := by
  intro hn
  obtain ⟨hin, hb⟩ := (scalingLabel_eq_label_iff hl).1 hn
  exact hb short hs ⟨(List.takeWhile_sublist _).mem hs, occursIn_trans ho hin.2⟩

/-- Of two hints in a name where one holds the other, the shorter has the label unless one
occurs that is tried before both; the pair is that of health and maximum health. All labels
but that of maximum health are those of some name. -/
theorem scalingLabel_nested (name : String) :
    (∀ short long, IsHintIn name short → IsHintIn name long → short ≠ long →
      occursIn short.1.toList long.1.toList = true →
        (scalingLabel name ≠ short.2 ↔ ∃ other ∈ hintsBefore short, IsHintIn name other) ∧
          short = ("hp", "Health") ∧ long = ("maxhp", "max Health")) ∧
    scalingLabel name ≠ "max Health" ∧
    ∀ hint ∈ scalingHints, hint.2 ≠ "max Health" → ∃ other, scalingLabel other = hint.2 := by
  refine ⟨fun short long hs hl hne ho => ⟨?_, eq_of_nested hs.1 hl.1 hne ho⟩, ?_,
    fun hint h hne => ?_⟩
  · rw [Ne, scalingLabel_eq_label_iff hs.1, and_iff_right hs]
    simp only [not_forall, not_not, exists_prop]
  · have hlong : ("maxhp", "max Health") ∈ scalingHints := by decide
    have hbefore : ("hp", "Health") ∈ hintsBefore ("maxhp", "max Health") := by decide
    exact scalingLabel_ne_of_nested hlong hbefore (by decide)
  · have hall : ∀ hint ∈ scalingHints, hint.2 ≠ "max Health" → scalingLabel hint.1 = hint.2 := by
      decide
    exact ⟨hint.1, hall hint h hne⟩

theorem scalingLabel_nested_maxhp :
    IsHintIn "MaxHPRatio" ("hp", "Health") ∧ IsHintIn "MaxHPRatio" ("maxhp", "max Health") ∧
      scalingLabel "MaxHPRatio" = "Health" ∧
      IsHintIn "BonusADMaxHP" ("hp", "Health") ∧ IsHintIn "BonusADMaxHP" ("maxhp", "max Health") ∧
      scalingLabel "BonusADMaxHP" ≠ "Health" := by
  have hs : IsHintIn "MaxHPRatio" ("hp", "Health") := by decide
  have hl : IsHintIn "MaxHPRatio" ("maxhp", "max Health") := by decide
  have hs' : IsHintIn "BonusADMaxHP" ("hp", "Health") := by decide
  have hl' : IsHintIn "BonusADMaxHP" ("maxhp", "max Health") := by decide
  have hbonus : IsHintIn "BonusADMaxHP" ("bonusad", "bonus AD") := by decide
  have hnone : ¬ ∃ other ∈ hintsBefore ("hp", "Health"), IsHintIn "MaxHPRatio" other := by decide
  obtain ⟨hiff, -⟩ := (scalingLabel_nested "MaxHPRatio").1 _ _ hs hl (by decide) (by decide)
  obtain ⟨hiff', -⟩ := (scalingLabel_nested "BonusADMaxHP").1 _ _ hs' hl' (by decide) (by decide)
  refine ⟨hs, hl, ?_, hs', hl', hiff'.2 ⟨_, by decide, hbonus⟩⟩
  exact Decidable.not_not.1 fun hne => hnone (hiff.1 hne)

/-- The label of the shorter of two hints can win over that of the longer. -/
theorem exists_hidden_hint :
    ¬ ∀ name short long, IsHintIn name short → IsHintIn name long → short ≠ long →
      occursIn short.1.toList long.1.toList = true → scalingLabel name ≠ short.2 := by
  intro h
  have hs : IsHintIn "MaxHPRatio" ("hp", "Health") := by decide
  have hl : IsHintIn "MaxHPRatio" ("maxhp", "max Health") := by decide
  have hlabel : scalingLabel "MaxHPRatio" = "Health" := by decide
  exact h _ _ _ hs hl (by decide) (by decide) hlabel

end Formula

namespace Amount

/-! ## The flat part of a sum -/

/-- What stands under other labels does not add to the flat part. -/
theorem flat?_add_of_notMem {b : Amount} (h : flatLabel ∉ b.labels) (a : Amount) :
    (a + b).flat? = a.flat? :=
  term?_combine_of_notMem a h

/-- The flat part of a sum depends on the flat part of the left side only. -/
theorem flat?_add_congr {a a' : Amount} (h : a.flat? = a'.flat?) (b : Amount) :
    (a + b).flat? = (a' + b).flat? := by
  cases hb : b.term? flatLabel with
  | none =>
    have hm : flatLabel ∉ b.labels := term?_eq_none_iff.1 hb
    rw [flat?_add_of_notMem hm, flat?_add_of_notMem hm, h]
  | some cs =>
    have hsum : ∀ a : Amount, (a + b).flat? = some (grown (cs.map (· * 1.0)) a.flat?) :=
      fun a => term?_combine_of_term? a hb
    rw [hsum, hsum, h]

end Amount

namespace Formula

open Amount (flatLabel)

/-- A part that scales with a stat, whose name has a letter or a digit. -/
def Part.isShare : Part → Bool
  | .stat name => Name.slug name != ""
  | _ => false

variable {lookup : Lookup}

/-- The amount of a share has nothing under the label of the flat part. -/
theorem Part.flatLabel_notMem_of_isShare {p : Part} {a : Amount} (hp : p.isShare = true)
    (h : p.evaluate lookup = .ok a) : flatLabel ∉ a.labels := by
  cases p with
  | stat name =>
    obtain ⟨b, -, rfl⟩ := map_eq_ok.1 h
    intro hm
    have hlabel : flatLabel = scalingLabel name := List.mem_singleton.1 hm
    rw [Part.isShare, scalingLabel_eq_flatLabel_iff.1 hlabel.symm] at hp
    cases hp
  | _ => cases hp

/-- Parts that are added to the same flat part come to the same flat part without the
shares among them. -/
theorem exists_sumParts_without_shares : ∀ {parts : List Part} {total total' c : Amount},
    total.flat? = total'.flat? → sumParts lookup total parts = .ok c →
      ∃ d, sumParts lookup total' (parts.filter (!·.isShare)) = .ok d ∧ c.flat? = d.flat?
  | [], _, total', _, ht, h => ⟨total', rfl, Except.ok.inj h ▸ ht⟩
  | p :: parts, total, total', c, ht, h => by
    obtain ⟨a, ha, h⟩ := sumParts_cons_eq_ok.1 h
    cases hp : p.isShare with
    | true =>
      rw [List.filter_cons_of_neg (by simp [hp])]
      have hsame : (total + a).flat? = total'.flat? :=
        (Amount.flat?_add_of_notMem (Part.flatLabel_notMem_of_isShare hp ha) total).trans ht
      exact exists_sumParts_without_shares hsame h
    | false =>
      rw [List.filter_cons_of_pos (by simp [hp])]
      obtain ⟨d, hd, hflat⟩ := exists_sumParts_without_shares (Amount.flat?_add_congr ht a) h
      exact ⟨d, sumParts_cons_eq_ok.2 ⟨a, ha, hd⟩, hflat⟩

/-- A part that scales with a stat is one term, with the flat coefficients of what its name
stands for. Its label is that of the flat part if and only if the name has neither letters nor
digits. The flat part of a sum of parts, a formula or a sum in one, is therefore the same
without the parts of all other names that scale with a stat. -/
theorem flat_without_shares (lookup : Lookup) :
    (∀ name a, lookup name = .ok a → ∃ b label, (Part.stat name).evaluate lookup = .ok b ∧
      b.terms.entries = [(label, a.flat?.getD [0.0])] ∧
        (label = flatLabel ↔ Name.slug name = "")) ∧
    ∀ parts c, sumParts lookup .zero parts = .ok c →
      ∃ d, sumParts lookup .zero (parts.filter (!·.isShare)) = .ok d ∧ c.flat? = d.flat? := by
  refine ⟨fun name a h => ?_, fun parts c h => exists_sumParts_without_shares rfl h⟩
  exact ⟨scaling name a, scalingLabel name, map_eq_ok.2 ⟨a, h, rfl⟩, rfl,
    scalingLabel_eq_flatLabel_iff⟩

theorem flat_without_shares_unnamed :
    ∃ c, sumParts ratioLookup .zero [.named "Base", .stat "APRatio", .stat "伤害"] = .ok c ∧
      c.flat? = some [40.5, 65.5, 90.5] := by
  have hbase : (Part.named "Base").evaluate ratioLookup = .ok (.ofRanks [40.0, 65.0, 90.0]) := rfl
  have hap : (Part.stat "APRatio").evaluate ratioLookup = .ok (.ofTerm "AP" [0.5]) :=
    have hlabel : scalingLabel "APRatio" = "AP" := by decide
    hlabel ▸ rfl
  have hunnamed : (Part.stat "伤害").evaluate ratioLookup = .ok (.ofTerm flatLabel [0.5]) :=
    have hlabel : scalingLabel "伤害" = flatLabel := by decide
    hlabel ▸ rfl
  obtain ⟨c, hc⟩ : ∃ c, sumParts ratioLookup .zero
      [.named "Base", .stat "APRatio", .stat "伤害"] = .ok c :=
    ⟨_, sumParts_eq_ok_iff.2 ⟨_, .cons hbase (.cons hap (.cons hunnamed .nil)), rfl⟩⟩
  obtain ⟨d, hd, hcd⟩ := (flat_without_shares ratioLookup).2 _ _ hc
  have hfilter : [Part.named "Base", .stat "APRatio", .stat "伤害"].filter (!·.isShare)
      = [.named "Base", .stat "伤害"] := by
    have hshares : (Part.named "Base").isShare = false ∧ (Part.stat "APRatio").isShare = true ∧
        (Part.stat "伤害").isShare = false := by decide
    simp [hshares]
  rw [hfilter, sumParts_eq_ok_iff.2 ⟨_, .cons hbase (.cons hunnamed .nil), rfl⟩] at hd
  cases hd
  exact ⟨c, hc, hcd.trans (by decide)⟩

/-- A part that scales with a stat can be flat. -/
theorem exists_flat_stat :
    ¬ ∀ (lookup : Lookup) name a, lookup name = .ok a → ∃ b label,
      (Part.stat name).evaluate lookup = .ok b ∧
        b.terms.entries = [(label, a.flat?.getD [0.0])] ∧ label ≠ flatLabel := by
  intro h
  obtain ⟨b, label, hb, he, hl⟩ := h (fun _ => .ok (.ofNumber 0.5)) "伤害" _ rfl
  have hlabel : scalingLabel "伤害" = flatLabel := by decide
  obtain rfl : scaling "伤害" (.ofNumber 0.5) = b := Except.ok.inj hb
  exact hl ((congrArg (fun e => e.1) (List.cons.inj he).1).symm.trans hlabel)

end Formula

end SpellText
