import SpellText.Catalog
import SpellText.Proofs.Fates

/-!
# A second pass

Texts that were filled in once stay as they are when they are filled in again :
what was put in has no braces, so that the markers that are left are exactly
those that stayed, and their fates are the same. The second pass skips and
reports what the first one did and replaces nothing.

`Settles` says this of any step that walks over a value and carries a tally. It
holds of texts (`Context.settles_fillText`), passes from the parts of a tree to
the tree, and from records to all texts of a locale
(`Catalog.fillTexts_fillTexts`).
-/

namespace SpellText

/-! ## Texts whose braces all belong to markers -/

namespace Cutting

/-- No brace stands outside of the markers. -/
structure Tidy (c : Cutting) : Prop where
  inner : ∀ inner ∈ c.inners, IsInner inner
  head : NoBrace c.head
  tail : ∀ m ∈ c.tail, NoBrace m.2

/-- Behind its first marker a tidy cutting is tidy. -/
theorem Tidy.behind {l inner l' : List Char} {ms : List (List Char × List Char)}
    (h : (Cutting.mk l ((inner, l') :: ms)).Tidy) : (Cutting.mk l' ms).Tidy where
  inner i hi := h.inner i (List.mem_cons_of_mem _ hi)
  head := h.tail _ List.mem_cons_self
  tail m hm := h.tail m (List.mem_cons_of_mem _ hm)

/-- A text without braces in front of a cutting belongs to its first stretch. -/
theorem isOf_noBrace : ∀ {l s : List Char} {k : Cutting}, NoBrace l → k.IsOf s →
    (Cutting.mk (l ++ k.head) k.tail).IsOf (l ++ s)
  | [], _, _, _, h => h
  | c :: l, s, k, hl, h => by
    obtain ⟨hc, hl⟩ := noBrace_cons.1 hl
    refine isOf_literal (isOf_noBrace hl h) ?_
    cases hm : Piece.marker? (c :: (l ++ s)) with
    | none => rfl
    | some r =>
      have := (Piece.eq_of_marker hm).1
      obtain rfl : c = '\x7b' := by simpa [Piece.chars] using congrArg List.head? this
      exact absurd hc (by decide)

/-- Where no brace stands outside of the markers, there are no other markers. -/
theorem Tidy.isOf : ∀ {ms : List (List Char × List Char)} {l : List Char},
    (Cutting.mk l ms).Tidy → (Cutting.mk l ms).IsOf (Cutting.mk l ms).chars
  | [], l, h => by
    have := isOf_noBrace h.head (isOf_ofPieces [])
    simpa [Piece.ofChars, ofPieces, chars_nil] using this
  | (inner, l') :: ms, l, h => by
    have hm := isOf_marker h.behind.isOf (h.inner inner List.mem_cons_self)
    rw [chars_cons]
    simpa using isOf_noBrace h.head hm

/-- The cutting after some markers were replaced : `f` gives the new text of those. -/
def settle (f : List Char → Option (List Char)) :
    List Char → List (List Char × List Char) → Cutting
  | l, [] => ⟨l, []⟩
  | l, (inner, l') :: ms =>
    match f inner with
    | some text => settle f (l ++ (text ++ l')) ms
    | none => ⟨l, (inner, (settle f l' ms).head) :: (settle f l' ms).tail⟩

variable {f : List Char → Option (List Char)}

/-- The new cutting makes up the text that was filled in. -/
theorem chars_settle : ∀ (l : List Char) (ms : List (List Char × List Char)),
    (settle f l ms).chars = (Cutting.mk l ms).fill fun inner =>
      (f inner).getD (Piece.marker inner).chars
  | l, [] => by simp [settle, chars, fill]
  | l, (inner, l') :: ms => by
    rw [settle]
    cases hf : f inner with
    | some text =>
      have ih := chars_settle (l ++ (text ++ l')) ms
      simp only [fill, List.flatMap_cons, hf, Option.getD_some] at ih ⊢
      rw [ih]
      simp [List.append_assoc]
    | none =>
      have ih := chars_settle l' ms
      simp only [fill, List.flatMap_cons, hf, Option.getD_none] at ih ⊢
      rw [chars_cons, ih]
      simp [List.append_assoc]

/-- The markers that are left are those that were not replaced. -/
theorem inners_settle : ∀ (l : List Char) (ms : List (List Char × List Char)),
    (settle f l ms).inners = (Cutting.mk l ms).inners.filter fun inner => (f inner).isNone
  | l, [] => rfl
  | l, (inner, l') :: ms => by
    rw [settle]
    cases hf : f inner with
    | some text =>
      rw [inners_settle (l ++ (text ++ l')) ms]
      simp [inners, hf]
    | none =>
      have ih := inners_settle l' ms
      simp only [inners] at ih ⊢
      simp [ih, hf]

/-- What is filled in without braces leaves a cutting tidy. -/
theorem tidy_settle (hf : ∀ inner text, f inner = some text → NoBrace text) :
    ∀ {ms : List (List Char × List Char)} {l : List Char}, (Cutting.mk l ms).Tidy →
      (settle f l ms).Tidy
  | [], _, h => h
  | (inner, l') :: ms, l, h => by
    rw [settle]
    cases hi : f inner with
    | some text =>
      have hb := h.behind
      exact tidy_settle hf ⟨hb.inner, noBrace_append.2
        ⟨h.head, noBrace_append.2 ⟨hf inner text hi, hb.head⟩⟩, hb.tail⟩
    | none =>
      have ih := tidy_settle hf h.behind
      refine ⟨fun i hm => ?_, h.head, fun m hm => ?_⟩
      · rcases List.mem_cons.1 hm with rfl | hm
        · exact h.inner _ List.mem_cons_self
        · exact ih.inner i hm
      · rcases List.mem_cons.1 hm with rfl | hm
        · exact ih.head
        · exact ih.tail m hm

end Cutting

/-- Every brace of the text belongs to a marker. -/
def TidyText (s : List Char) : Prop := ∃ c : Cutting, c.Tidy ∧ c.chars = s

/-! ## Steps that settle -/

/-- The tally of a second pass : nothing is replaced any more. -/
def Tally.unreplaced (u : Tally) : Tally := { u with replaced := 0 }

theorem Tally.unreplaced_append (u v : Tally) :
    (u ++ v).unreplaced = u.unreplaced ++ v.unreplaced :=
  rfl

/-- Of the markers that stay everything is counted again, of the others nothing. -/
theorem Fate.unreplaced_tally (f : Fate) :
    f.tally.unreplaced = if f.text?.isNone then f.tally else .empty := by
  cases f <;> rfl

/-- The step leaves a value that it does not change again, and both times it
skips and reports the same. -/
def Settles {α : Type} (step : α → Tally → α × Tally) (v : α) : Prop :=
  ∃ v' u, (∀ t, step v t = (v', t ++ u)) ∧ ∀ t, step v' t = (v', t ++ u.unreplaced)

namespace Settles

variable {α β γ : Type} {step : γ → Tally → γ × Tally}

/-- A value that is passed over. -/
theorem of_unchanged {v : γ} (h : ∀ t, step v t = (v, t)) : Settles step v :=
  ⟨v, .empty, fun t => by rw [h, Tally.append_empty], fun t => by
    rw [h]
    exact congrArg _ (Tally.append_empty t).symm⟩

/-- A value with a single part. -/
theorem wrap {part : α → Tally → α × Tally} {a : α} (h : Settles part a) (make : α → γ)
    (hstep : ∀ a t, step (make a) t = (make (part a t).1, (part a t).2)) :
    Settles step (make a) := by
  obtain ⟨a', u, h₁, h₂⟩ := h
  exact ⟨make a', u, fun t => by rw [hstep, h₁], fun t => by rw [hstep, h₂]⟩

/-- A value with two parts, of which the first one is walked over first. -/
theorem join {left : α → Tally → α × Tally} {right : β → Tally → β × Tally} {a : α} {b : β}
    (ha : Settles left a) (make : α → β → γ) (hb : Settles right b)
    (hstep : ∀ a b t, step (make a b) t
      = (make (left a t).1 (right b (left a t).2).1, (right b (left a t).2).2)) :
    Settles step (make a b) := by
  obtain ⟨a', u, ha₁, ha₂⟩ := ha
  obtain ⟨b', v, hb₁, hb₂⟩ := hb
  refine ⟨make a' b', u ++ v, fun t => ?_, fun t => ?_⟩
  · rw [hstep, ha₁, hb₁, Tally.append_assoc]
  · rw [hstep, ha₂, hb₂, Tally.append_assoc, Tally.unreplaced_append]

end Settles

/-! ## Texts and trees -/

namespace Context

/-- The text that replaces a marker, without braces where the resource name has none. -/
theorem noBrace_of_fate {x : Context} (hx : NoBrace (x.champion.resourceName x.locale).toList)
    {placeholder : List Char} {text : String} (h : (x.fate placeholder).text? = some text) :
    NoBrace text.toList := by
  cases hr : isResourceName placeholder with
  | true =>
    rw [x.fate_resource hr] at h
    cases h
    exact hx
  | false =>
    rcases x.fate_cases hr with ⟨answer, hf, ha⟩ | hf
    · rw [hf] at h
      cases h
      exact ha
    · rw [Fate.text?_eq_none_iff.2 hf] at h
      cases h

/-- The markers that stay have the tally of all markers, less what was replaced. -/
theorem sum_fates_left (x : Context) (inners : List (List Char)) :
    Tally.sum ((x.fates (inners.filter fun inner => (x.replacement? inner).isNone)).map Fate.tally)
      = (Tally.sum ((x.fates inners).map Fate.tally)).unreplaced := by
  induction inners with
  | nil => rfl
  | cons inner inners ih =>
    have hs : Tally.sum ((x.fates (inner :: inners)).map Fate.tally)
        = (x.fate (Text.trim inner)).tally ++ Tally.sum ((x.fates inners).map Fate.tally) := rfl
    rw [hs, Tally.unreplaced_append, ← ih, Fate.unreplaced_tally, List.filter_cons,
      replacement?, Option.isNone_map]
    split
    · rfl
    · exact (Tally.empty_append _).symm

/-- A tidy text settles in one pass. -/
theorem settles_fillText {x : Context} (hx : NoBrace (x.champion.resourceName x.locale).toList)
    {text : String} (h : TidyText text.toList) : Settles x.fillText text := by
  obtain ⟨⟨l, ms⟩, hc, hs⟩ := h
  have hf : ∀ inner text, x.replacement? inner = some text → NoBrace text := by
    intro inner text hi
    obtain ⟨s, hs, rfl⟩ := Option.map_eq_some_iff.1 hi
    exact noBrace_of_fate hx hs
  have hof : (Cutting.mk l ms).IsOf text.toList := hs ▸ hc.isOf
  have hfill : (Cutting.mk l ms).fill x.replacement
      = (Cutting.settle x.replacement? l ms).chars :=
    (Cutting.chars_settle l ms).symm
  -- No marker that is left has a replacement.
  have hfill' : (Cutting.settle x.replacement? l ms).fill x.replacement
      = (Cutting.settle x.replacement? l ms).chars := by
    refine Cutting.fill_congr fun m hm => ?_
    have hi := List.mem_map_of_mem (f := Prod.fst) hm
    rw [← Cutting.inners, Cutting.inners_settle] at hi
    rw [replacement, Option.isNone_iff_eq_none.1 (List.mem_filter.1 hi).2, Option.getD_none]
  refine ⟨String.ofList (Cutting.settle x.replacement? l ms).chars,
    .sum ((x.fates (Cutting.mk l ms).inners).map Fate.tally), fun t => ?_, fun t => ?_⟩
  · rw [x.fillText_eq hof, hfill]
  · have hof' := (Cutting.tidy_settle hf hc).isOf
    rw [x.fillText_eq (by rwa [String.toList_ofList]), hfill', Cutting.inners_settle,
      sum_fates_left]

mutual

/-- A tree of tidy texts settles in one pass. -/
theorem settles_fill {x : Context} (hx : NoBrace (x.champion.resourceName x.locale).toList) :
    ∀ {v : Json}, (∀ s ∈ v.strings, TidyText s.toList) → Settles x.fill v
  | .string s, h =>
    (settles_fillText hx (h s List.mem_cons_self)).wrap Json.string fun _ _ => rfl
  | .array _, h => (settles_fillItems hx h).wrap Json.array fun _ _ => rfl
  | .object _, h => (settles_fillMembers hx h).wrap Json.object fun _ _ => rfl
  | .null, _ => .of_unchanged fun _ => rfl
  | .bool _, _ => .of_unchanged fun _ => rfl
  | .number _, _ => .of_unchanged fun _ => rfl

theorem settles_fillItems {x : Context} (hx : NoBrace (x.champion.resourceName x.locale).toList) :
    ∀ {items : List Json}, (∀ s ∈ Json.stringsOfItems items, TidyText s.toList) →
      Settles x.fillItems items
  | [], _ => .of_unchanged fun _ => rfl
  | _ :: _, h =>
    (settles_fill hx fun s hs => h s (List.mem_append_left _ hs)).join List.cons
      (settles_fillItems hx fun s hs => h s (List.mem_append_right _ hs)) fun _ _ _ => rfl

theorem settles_fillMembers {x : Context}
    (hx : NoBrace (x.champion.resourceName x.locale).toList) :
    ∀ {members : List (String × Json)},
      (∀ s ∈ Json.stringsOfMembers members, TidyText s.toList) → Settles x.fillMembers members
  | [], _ => .of_unchanged fun _ => rfl
  | (key, _) :: _, h =>
    (settles_fill hx fun s hs => h s (List.mem_append_left _ hs)).join
      (fun v rest => (key, v) :: rest)
      (settles_fillMembers hx fun s hs => h s (List.mem_append_right _ hs)) fun _ _ _ => rfl

end

end Context

/-! ## Records and all texts of a locale -/

namespace Champion

variable {c : Champion} {locale : String} (hc : NoBrace (c.resourceName locale).toList)
include hc

/-- The texts of the slots settle, each in the context of its ability. -/
theorem settles_fillSpells : ∀ (slot : Nat) {texts : List Json},
    (∀ s ∈ Json.stringsOfItems texts, TidyText s.toList) → Settles (c.fillSpells locale slot) texts
  | _, [], _ => .of_unchanged fun _ => rfl
  | slot, _ :: _, h =>
    (Context.settles_fill (x := ⟨c, c.abilityOfSlot? slot, locale⟩) hc
        fun s hs => h s (List.mem_append_left _ hs)).join List.cons
      (settles_fillSpells (slot + 1) fun s hs => h s (List.mem_append_right _ hs)) fun _ _ _ => rfl

theorem settles_fillField_spells {v : Json} (h : ∀ s ∈ v.strings, TidyText s.toList) :
    Settles (c.fillField locale spellsField) v := by
  by_cases hv : ∃ texts, v = .array texts
  · obtain ⟨texts, rfl⟩ := hv
    exact (settles_fillSpells hc 0 h).wrap Json.array (c.fillField_spells locale)
  · exact .of_unchanged (c.fillField_spells_of_not_array locale (not_exists.1 hv))

theorem settles_fillField_passive {v : Json} (h : ∀ s ∈ v.strings, TidyText s.toList) :
    Settles (c.fillField locale passiveField) v := by
  cases ha : c.ability? passiveKey with
  | some passive =>
    rw [fillField_passive ha]
    exact Context.settles_fill (x := ⟨c, some passive, locale⟩) hc h
  | none => exact .of_unchanged (fillField_passive_none ha locale v)

/-- Every field of a record settles. -/
theorem settles_fillField (field : String) {v : Json} (h : ∀ s ∈ v.strings, TidyText s.toList) :
    Settles (c.fillField locale field) v := by
  by_cases hs : field = spellsField
  · rw [hs]
    exact settles_fillField_spells hc h
  · by_cases hp : field = passiveField
    · rw [hp]
      exact settles_fillField_passive hc h
    · rw [c.fillField_of_ne locale hs hp]
      exact Context.settles_fill (x := ⟨c, none, locale⟩) hc h

/-- The fields of a record settle one after the other. -/
theorem settles_fillFields : ∀ {members : List (String × Json)},
    (∀ s ∈ Json.stringsOfMembers members, TidyText s.toList) → Settles (c.fillFields locale) members
  | [], _ => .of_unchanged fun _ => rfl
  | (field, _) :: _, h =>
    (settles_fillField hc field fun s hs => h s (List.mem_append_left _ hs)).join
      (fun v rest => (field, v) :: rest)
      (settles_fillFields fun s hs => h s (List.mem_append_right _ hs)) fun _ _ _ => rfl

theorem settles_fillRecord {record : Json} (h : ∀ s ∈ record.strings, TidyText s.toList) :
    Settles (c.fillRecord locale) record := by
  cases record with
  | object members => exact (settles_fillFields hc h).wrap Json.object fun _ _ => rfl
  | _ => exact .of_unchanged fun _ => rfl

end Champion

namespace Catalog

section

variable {c : Catalog} {locale : String}
  (hc : ∀ e ∈ c.entries, NoBrace (e.2.resourceName locale).toList)
include hc

theorem settles_fillRecord (name : String) {record : Json}
    (h : ∀ s ∈ record.strings, TidyText s.toList) :
    Settles (c.fillRecord locale name) record := by
  cases hn : c.get? name with
  | some champion =>
    have : c.fillRecord locale name = champion.fillRecord locale := by
      funext v t
      rw [fillRecord, hn]
    rw [this]
    exact Champion.settles_fillRecord (hc _ (Table.mem_of_get? hn)) h
  | none => exact .of_unchanged fun _ => by rw [fillRecord, hn]

theorem settles_fillTexts : ∀ {texts : Texts},
    (∀ s ∈ Json.stringsOfMembers texts, TidyText s.toList) → Settles (c.fillTexts locale) texts
  | [], _ => .of_unchanged fun _ => rfl
  | (name, _) :: _, h =>
    (settles_fillRecord hc name fun s hs => h s (List.mem_append_left _ hs)).join
      (fun record rest => (name, record) :: rest)
      (settles_fillTexts fun s hs => h s (List.mem_append_right _ hs)) fun _ _ _ => rfl

end

/-- Where braces stand in markers only and no resource name has any, resolving
the texts of a locale again changes nothing, replaces nothing, and skips and
reports the same as the first time. -/
theorem fillTexts_fillTexts {c : Catalog} {locale : String}
    (hc : ∀ e ∈ c.entries, NoBrace (e.2.resourceName locale).toList) {texts : Texts}
    (h : ∀ s ∈ Json.stringsOfMembers texts, TidyText s.toList) (t t' : Tally) :
    ∃ u : Tally, (c.fillTexts locale texts t).2 = t ++ u ∧
      c.fillTexts locale (c.fillTexts locale texts t).1 t'
        = ((c.fillTexts locale texts t).1, t' ++ ⟨0, u.skipped, u.errors⟩) := by
  obtain ⟨texts', u, h₁, h₂⟩ := settles_fillTexts hc h
  refine ⟨u, by rw [h₁], ?_⟩
  rw [h₁]
  exact h₂ t'

/-- A champion without numbers, whose abilities cost mana. -/
def fruitless : Catalog :=
  .single "Sona" ⟨.empty, "Sona", "sona", "Mana", ⟨.empty⟩, []⟩

/-- A text of which one marker is skipped and the other one is replaced. -/
def fruitlessTexts : Texts :=
  [("Sona", .object [("lore", .string
    "\x7b\x7b q \x7d\x7d costs \x7b\x7b abilityresourcename \x7d\x7d")])]

theorem noBrace_fruitless :
    ∀ e ∈ fruitless.entries, NoBrace (e.2.resourceName "en").toList := by
  decide +kernel

theorem tidy_fruitless : ∀ s ∈ Json.stringsOfMembers fruitlessTexts, TidyText s.toList := by
  intro s hs
  obtain rfl : s = _ := List.mem_singleton.1 hs
  refine ⟨⟨[], [(" q ".toList, " costs ".toList), (" abilityresourcename ".toList, [])]⟩, ?_, ?_⟩
  · exact ⟨by decide +kernel, by decide +kernel, by decide +kernel⟩
  · decide

theorem fillTexts_fillTexts_fruitless :
    (∀ e ∈ fruitless.entries, NoBrace (e.2.resourceName "en").toList) ∧
      (∀ s ∈ Json.stringsOfMembers fruitlessTexts, TidyText s.toList) ∧
      ∃ u : Tally, (fruitless.fillTexts "en" fruitlessTexts .empty).2 = .empty ++ u ∧
        fruitless.fillTexts "en" (fruitless.fillTexts "en" fruitlessTexts .empty).1 .empty
          = ((fruitless.fillTexts "en" fruitlessTexts .empty).1,
            .empty ++ ⟨0, u.skipped, u.errors⟩) :=
  ⟨noBrace_fruitless, tidy_fruitless,
    fillTexts_fillTexts noBrace_fruitless tidy_fruitless .empty .empty⟩

end Catalog

end SpellText
