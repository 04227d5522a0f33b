import SpellText.Catalog
import SpellText.Proofs.Records

/-!
# Records divided among workers

A walk over texts takes a tally along but never looks at it: whatever was counted before,
it gives the same and counts the same (`Tally.IsAdditive`). Records that are resolved in
turn may therefore be cut into groups with tallies of their own, which are merged
afterwards (`Tally.inTurn_flatten`); in another order of merging the counts stay and the
reports change places (`Tally.sum_perm`).

A walk changes its tally only where it meets a marker (`Champion.Work.tally_fillAll`).
What one marker adds to the reports it adds to the skipped as well, so that at no moment
there are more reports than skipped markers (`Encounter.errors_le_skipped`).

`Champion.Work.fillAll_divided` puts this together.
-/

namespace SpellText

namespace Tally

/-! ## Merging -/

/-- In another order the counts stay and the reports change places. -/
theorem sum_perm {ts us : List Tally} (h : ts.Perm us) :
    (sum ts).replaced = (sum us).replaced ∧ (sum ts).skipped = (sum us).skipped ∧
      (sum ts).errors.Perm (sum us).errors := by
  induction h with
  | nil => exact ⟨rfl, rfl, .refl _⟩
  | cons t _ ih =>
    obtain ⟨hr, hs, he⟩ := ih
    exact ⟨congrArg (t.replaced + ·) hr, congrArg (t.skipped + ·) hs, he.append_left _⟩
  | swap t u ts =>
    exact ⟨Nat.add_left_comm .., Nat.add_left_comm .., List.perm_append_comm_assoc ..⟩
  | trans _ _ ih ih' =>
    obtain ⟨hr, hs, he⟩ := ih
    obtain ⟨hr', hs', he'⟩ := ih'
    exact ⟨hr.trans hr', hs.trans hs', he.trans he'⟩

theorem sum_flatMap {α : Type} (g : α → List Tally) (as : List α) :
    sum (as.flatMap g) = sum (as.map fun a => sum (g a)) := by
  induction as with
  | nil => rfl
  | cons a as ih => rw [List.flatMap_cons, sum_append, ih, List.map_cons, sum_cons]

/-- Where no term reports more markers than it skips, the sum does not either. -/
theorem errors_le_skipped_sum {ts : List Tally}
    (h : ∀ t ∈ ts, t.errors.length ≤ t.skipped) : (sum ts).errors.length ≤ (sum ts).skipped := by
  induction ts with
  | nil => exact Nat.le_refl 0
  | cons t ts ih =>
    rw [sum_cons, errors_append, skipped_append, List.length_append]
    exact Nat.add_le_add (h t List.mem_cons_self)
      (ih fun u hu => h u (List.mem_cons_of_mem t hu))

/-! ## Counting on -/

/-- Whatever was counted before, the same comes out and the same is counted. -/
def IsAdditive {β : Type} (f : Tally → β × Tally) : Prop :=
  ∀ t, f t = ((f .empty).1, t ++ (f .empty).2)

/-- Carry out `f` for every member of a list, with one tally for all. -/
def inTurn {α β : Type} (f : α → Tally → β × Tally) : List α → Tally → List β × Tally
  | [], t => ([], t)
  | a :: rest, t =>
    let (b, t) := f a t
    let (bs, t) := inTurn f rest t
    (b :: bs, t)

section

variable {α β : Type} {f : α → Tally → β × Tally}

theorem inTurn_cons (a : α) (as : List α) (t : Tally) :
    inTurn f (a :: as) t
      = ((f a t).1 :: (inTurn f as (f a t).2).1, (inTurn f as (f a t).2).2) :=
  rfl

/-- A list in two pieces is taken in turn piece by piece. -/
theorem inTurn_append : ∀ (as bs : List α) (t : Tally),
    inTurn f (as ++ bs) t = ((inTurn f as t).1 ++ (inTurn f bs (inTurn f as t).2).1,
      (inTurn f bs (inTurn f as t).2).2)
  | [], _, _ => rfl
  | a :: as, bs, t => by
    rw [List.cons_append, inTurn_cons, inTurn_append as, inTurn_cons]
    rfl

variable (hf : ∀ a, IsAdditive (f a))
include hf

/-- What is taken in turn is taken each with an empty tally, and the tallies are added. -/
theorem inTurn_eq : ∀ (as : List α) (t : Tally),
    inTurn f as t = (as.map fun a => (f a .empty).1, t ++ sum (as.map fun a => (f a .empty).2))
  | [], t => congrArg (([] : List β), ·) t.append_empty.symm
  | a :: as, t => by
    rw [inTurn_cons, hf a t, inTurn_eq as]
    simp only [List.map_cons, sum_cons, append_assoc]

/-- Taking a list in turn is additive again. -/
theorem isAdditive_inTurn (as : List α) : IsAdditive (inTurn f as) := fun t => by
  rw [inTurn_eq hf as t, inTurn_eq hf as .empty, empty_append]

/-- A list may be cut into groups with tallies of their own, which are merged afterwards. -/
theorem inTurn_flatten : ∀ (groups : List (List α)) (t : Tally),
    inTurn f groups.flatten t = ((groups.map fun g => (inTurn f g .empty).1).flatten,
      t ++ sum (groups.map fun g => (inTurn f g .empty).2))
  | [], t => congrArg (([] : List β), ·) t.append_empty.symm
  | g :: groups, t => by
    rw [List.flatten_cons, inTurn_append, isAdditive_inTurn hf g t, inTurn_flatten groups]
    simp only [List.map_cons, List.flatten_cons, sum_cons, append_assoc]

end

end Tally

/-! ## Walks -/

theorem Json.isAdditive_filled (g : Filling) (v : Json) : Tally.IsAdditive (v.filled g) :=
  fun t => by rw [filled, filled, Tally.empty_append]

namespace Context

/-- A tree is filled in and counted alike whatever was counted before. -/
theorem isAdditive_fill (x : Context) (v : Json) : Tally.IsAdditive (x.fill v) := fun t => by
  rw [fill_eq_filled, fill_eq_filled]
  exact Json.isAdditive_filled x.filling v t

end Context

namespace Champion

/-- A record is resolved and counted alike whatever was counted before. -/
theorem isAdditive_fillRecord (c : Champion) (locale : String) (record : Json) :
    Tally.IsAdditive (c.fillRecord locale record) := fun t => by
  rw [fillRecord_eq_filled, fillRecord_eq_filled]
  exact Json.isAdditive_filled (c.fillAt locale) record t

end Champion

namespace Catalog

variable (c : Catalog) (locale : String)

theorem isAdditive_fillRecord (name : String) (record : Json) :
    Tally.IsAdditive (c.fillRecord locale name record) := fun t => by
  cases h : c.get? name with
  | some champion =>
    have hc : c.fillRecord locale name record = champion.fillRecord locale record := by
      funext t
      rw [fillRecord, h]
    rw [hc]
    exact champion.isAdditive_fillRecord locale record t
  | none =>
    rw [fillRecord, fillRecord, h]
    exact congrArg (record, ·) t.append_empty.symm

/-- Resolve a record under its name. -/
def fillEntry (e : String × Json) (t : Tally) : (String × Json) × Tally :=
  ((e.1, (c.fillRecord locale e.1 e.2 t).1), (c.fillRecord locale e.1 e.2 t).2)

theorem isAdditive_fillEntry (e : String × Json) : Tally.IsAdditive (c.fillEntry locale e) :=
  fun t => by
    rw [fillEntry, c.isAdditive_fillRecord locale e.1 e.2 t]
    rfl

/-- The texts of a locale are resolved record by record. -/
theorem fillTexts_eq_inTurn : ∀ (texts : Texts) (t : Tally),
    c.fillTexts locale texts t = Tally.inTurn (c.fillEntry locale) texts t
  | [], _ => rfl
  | e :: texts, t => by
    rw [Tally.inTurn_cons, ← fillTexts_eq_inTurn texts]
    rfl

end Catalog

/-! ## Markers on the way -/

/-- A marker that a walk meets: its context and the placeholder in it. -/
structure Encounter where
  context : Context
  placeholder : List Char

namespace Encounter

/-- Count the marker. -/
def count (e : Encounter) (t : Tally) : Tally := (e.context.resolve e.placeholder t).2

/-- Count markers in the order in which they are met. -/
def countAll (es : List Encounter) (t : Tally) : Tally := es.foldl (fun t e => e.count t) t

/-- What is counted for the marker. -/
def tally (e : Encounter) : Tally := (e.context.fate e.placeholder).tally

/-- A marker adds its own tally to what was counted. -/
theorem count_eq (e : Encounter) (t : Tally) : e.count t = t ++ e.tally := by
  rw [count, Context.resolve_eq, tally]

/-- Markers add the sum of their tallies. -/
theorem countAll_eq (es : List Encounter) (t : Tally) :
    countAll es t = t ++ .sum (es.map tally) := by
  induction es generalizing t with
  | nil => exact t.append_empty.symm
  | cons e es ih =>
    show countAll es (e.count t) = _
    rw [ih, count_eq, List.map_cons, Tally.sum_cons, Tally.append_assoc]

/-- A marker that is reported is also skipped. -/
theorem errors_le_skipped_count (e : Encounter) {t : Tally} (h : t.errors.length ≤ t.skipped) :
    (e.count t).errors.length ≤ (e.count t).skipped := by
  rw [count_eq, Tally.errors_append, Tally.skipped_append, List.length_append]
  refine Nat.add_le_add h ?_
  unfold tally
  cases e.context.fate e.placeholder <;> simp [Fate.tally, Tally.empty]

/-- No more markers are reported than skipped, at any time of a walk. -/
theorem errors_le_skipped (es : List Encounter) {t : Tally} (h : t.errors.length ≤ t.skipped) :
    (countAll es t).errors.length ≤ (countAll es t).skipped := by
  induction es generalizing t with
  | nil => exact h
  | cons e es ih => exact ih (e.errors_le_skipped_count h)

end Encounter

/-- The markers of a text from left to right. -/
def Context.encounters (x : Context) (text : String) : List Encounter :=
  (Cutting.ofPieces (Piece.ofChars text.toList)).inners.map fun inner => ⟨x, Text.trim inner⟩

/-- What a text adds is what its markers add, in order. -/
theorem Context.tally_fillText (x : Context) (text : String) (t : Tally) :
    (x.fillText text t).2 = t ++ .sum ((x.encounters text).map Encounter.tally) := by
  rw [x.fillText_eq (Cutting.isOf_ofPieces text.toList), encounters, fates, List.map_map,
    List.map_map]
  rfl

namespace Champion

section

variable (c : Champion) (locale : String)

/-- The markers of a string in a record. A string that is left alone has none. -/
def encountersAt (l : Json.Leaf) : List Encounter :=
  match c.contextAt? locale l.path with
  | some x => x.encounters l.text
  | none => []

/-- The markers of a record in document order. -/
def encounters (record : Json) : List Encounter := record.leaves.flatMap (c.encountersAt locale)

/-- What a string at a path adds is what its markers add in the context of the path. -/
theorem tally_fillAt (l : Json.Leaf) :
    (c.fillAt locale).tally l = .sum ((c.encountersAt locale l).map Encounter.tally) := by
  unfold Json.Filling.tally fillAt encountersAt
  cases c.contextAt? locale l.path with
  | some x => exact (x.tally_fillText l.text .empty).trans (Tally.empty_append _)
  | none => rfl

/-- A record counts the markers that a walk over it meets. -/
theorem tally_fillRecord (record : Json) (t : Tally) :
    (c.fillRecord locale record t).2 = Encounter.countAll (c.encounters locale record) t := by
  have hf : (c.fillAt locale).tally
      = fun l => .sum ((c.encountersAt locale l).map Encounter.tally) :=
    funext (c.tally_fillAt locale)
  rw [fillRecord_eq_filled, Json.filled, Encounter.countAll_eq, encounters, List.map_flatMap,
    Tally.sum_flatMap, hf]

end

/-- A record to be resolved, with its champion and its locale. -/
structure Work where
  champion : Champion
  locale : String
  record : Json

namespace Work

/-- Resolve the record. -/
def fill (w : Work) (t : Tally) : Json × Tally := w.champion.fillRecord w.locale w.record t

/-- Resolve records one after the other with one tally. -/
def fillAll (ws : List Work) (t : Tally) : List Json × Tally := Tally.inTurn fill ws t

/-- The markers of records in the order in which they are met. -/
def encounters (ws : List Work) : List Encounter :=
  ws.flatMap fun w => w.champion.encounters w.locale w.record

/-- A piece of work is done and counted alike whatever was counted before. -/
theorem isAdditive_fill (w : Work) : Tally.IsAdditive w.fill :=
  w.champion.isAdditive_fillRecord w.locale w.record

/-- Records count their markers in turn. -/
theorem tally_fillAll : ∀ (ws : List Work) (t : Tally),
    (fillAll ws t).2 = Encounter.countAll (encounters ws) t
  | [], _ => rfl
  | w :: ws, t => by
    rw [fillAll, Tally.inTurn_cons, ← fillAll, tally_fillAll ws, fill, tally_fillRecord]
    exact List.foldl_append.symm

/-- At no moment on the way there are more reports than skipped markers. -/
theorem errors_le_skipped_fillAll (ws : List Work) :
    (fillAll ws .empty).2.errors.length ≤ (fillAll ws .empty).2.skipped := by
  rw [tally_fillAll]
  exact Encounter.errors_le_skipped _ (Nat.le_refl 0)

/-- A walk continues its tally with what it counts from nothing. Records may be divided
into groups with tallies of their own; merged in order these are the tally of all records,
and in another order the counts stay and the reports change places. At every moment, behind
any number of markers or of merged tallies, there are no more reports than skipped
markers. -/
theorem fillAll_divided :
    (∀ (x : Context) (v : Json) (t : Tally),
      x.fill v t = ((x.fill v .empty).1, t ++ (x.fill v .empty).2)) ∧
    (∀ (groups : List (List Work)) (t : Tally),
      fillAll groups.flatten t = ((groups.map fun g => (fillAll g .empty).1).flatten,
        t ++ .sum (groups.map fun g => (fillAll g .empty).2))) ∧
    (∀ (c : Catalog) (locale : String) (groups : List Texts) (t : Tally),
      c.fillTexts locale groups.flatten t
        = ((groups.map fun g => (c.fillTexts locale g .empty).1).flatten,
          t ++ .sum (groups.map fun g => (c.fillTexts locale g .empty).2))) ∧
    (∀ (groups : List (List Work)) (us : List Tally),
      us.Perm (groups.map fun g => (fillAll g .empty).2) →
        (Tally.sum us).replaced = (fillAll groups.flatten .empty).2.replaced ∧
        (Tally.sum us).skipped = (fillAll groups.flatten .empty).2.skipped ∧
        (Tally.sum us).errors.Perm (fillAll groups.flatten .empty).2.errors ∧
        ∀ vs, vs <+: us → (Tally.sum vs).errors.length ≤ (Tally.sum vs).skipped) ∧
    ∀ ws : List Work, (fillAll ws .empty).2 = Encounter.countAll (encounters ws) .empty ∧
      ∀ es, es <+: encounters ws →
        (Encounter.countAll es .empty).errors.length ≤ (Encounter.countAll es .empty).skipped := by
  refine ⟨Context.isAdditive_fill, Tally.inTurn_flatten isAdditive_fill,
    fun c locale groups t => ?_, fun groups us h => ?_, fun ws => ⟨tally_fillAll ws .empty, ?_⟩⟩
  · simp only [c.fillTexts_eq_inTurn locale]
    exact Tally.inTurn_flatten (c.isAdditive_fillEntry locale) groups t
  · have hall : (fillAll groups.flatten .empty).2 = _ :=
      congrArg Prod.snd (Tally.inTurn_flatten isAdditive_fill groups .empty)
    rw [hall, Tally.empty_append]
    obtain ⟨hr, hs, he⟩ := Tally.sum_perm h
    refine ⟨hr, hs, he, fun vs hv => Tally.errors_le_skipped_sum fun v hm => ?_⟩
    obtain ⟨g, -, rfl⟩ := List.mem_map.1 (h.subset (hv.subset hm))
    exact errors_le_skipped_fillAll g
  · exact fun es _ => Encounter.errors_le_skipped es (Nat.le_refl 0)

end Work

end Champion

end SpellText
