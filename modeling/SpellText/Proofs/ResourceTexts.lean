import SpellText.Proofs.Records

/-!
# What the locale changes

A filled text is made of segments : what stands for one piece of the text each
(`Context.segments`). The segment of a marker that asks for the resource name is told apart
from the others, and only what such a segment holds depends on the locale.

In two locales a record is filled to the same segments, but for the name of the resource in
them (`Champion.mask_segmentsAt`), and the same is counted and reported. With a token for the
name, the two filled records are equal : `Champion.fillRecord_locales`.
-/

namespace SpellText

/-! ## Segments -/

/-- What stands for a piece of a text after it is filled in. -/
inductive Segment
  /-- The name of the resource, in place of a marker that asks for it. -/
  | resource (s : List Char)
  /-- The text of any other piece. -/
  | other (s : List Char)
  deriving DecidableEq, Repr

namespace Segment

def chars : Segment → List Char
  | resource s => s
  | other s => s

/-- The segment with a token for the name of the resource. -/
def mask (token : String) : Segment → Segment
  | resource _ => resource token.toList
  | other s => other s

/-- The text that is made of the segments. -/
def text (segments : List Segment) : String := String.ofList (segments.flatMap chars)

end Segment

/-- The piece is a marker that asks for the resource name. -/
def Piece.asksResource : Piece → Bool
  | literal _ => false
  | marker inner => isResourceName (Text.trim inner)

namespace Context

/-- The segment that a piece becomes. -/
def segment (x : Context) (p : Piece) : Segment :=
  if p.asksResource then .resource (x.fillPiece p .empty).1 else .other (x.fillPiece p .empty).1

/-- The segments of a filled text. -/
def segments (x : Context) (text : String) : List Segment :=
  (Piece.ofChars text.toList).map x.segment

/-- A segment reads as what its piece is filled in with. -/
theorem chars_segment (x : Context) (p : Piece) :
    (x.segment p).chars = (x.fillPiece p .empty).1 := by
  unfold segment
  split <;> rfl

/-- A filled text is made of its segments. -/
theorem fillText_eq_segments (x : Context) (text : String) (t : Tally) :
    (x.fillText text t).1 = Segment.text (x.segments text) := by
  rw [x.fillText_eq (Cutting.isOf_ofPieces text.toList) t, Cutting.fill_ofPieces, Segment.text,
    segments, List.flatMap_map]
  refine congrArg (fun f => String.ofList ((Piece.ofChars text.toList).flatMap f)) ?_
  funext p
  rw [chars_segment]
  cases p with
  | literal c => rfl
  | marker inner => rw [fillPiece_marker]

/-! ## Another locale -/

/-- The same place in another locale. -/
def inLocale (x : Context) (locale : String) : Context := { x with locale }

variable (x : Context) (locale : String)

/-- A placeholder other than the name of the resource fares alike in all locales. -/
theorem fate_inLocale {placeholder : List Char} (h : isResourceName placeholder = false) :
    (x.inLocale locale).fate placeholder = x.fate placeholder := by
  have hnot : ¬ isResourceName placeholder = true := by simp [h]
  rw [fate, fate, if_neg hnot, if_neg hnot]
  rfl

/-- The resource name is not counted, and other markers do not read the locale. -/
theorem tally_fate_inLocale (placeholder : List Char) :
    ((x.inLocale locale).fate placeholder).tally = (x.fate placeholder).tally := by
  cases h : isResourceName placeholder with
  | true =>
    rw [fate_resource _ h, fate_resource _ h]
    rfl
  | false => rw [fate_inLocale x locale h]

/-- A text counts the same in all locales. -/
theorem tally_fillText_inLocale (text : String) (t : Tally) :
    ((x.inLocale locale).fillText text t).2 = (x.fillText text t).2 := by
  have hc := Cutting.isOf_ofPieces text.toList
  have hfates : ∀ inners, ((x.inLocale locale).fates inners).map Fate.tally
      = (x.fates inners).map Fate.tally := fun inners => by
    rw [fates, fates, List.map_map, List.map_map]
    exact List.map_congr_left fun inner _ => x.tally_fate_inLocale locale (Text.trim inner)
  rw [(x.inLocale locale).fillText_eq hc, x.fillText_eq hc, hfates]

/-- A piece becomes the same in every locale, unless it asks for the resource name. -/
theorem fillPiece_inLocale {p : Piece} (h : p.asksResource = false) (t : Tally) :
    ((x.inLocale locale).fillPiece p t).1 = (x.fillPiece p t).1 := by
  cases p with
  | literal c => rfl
  | marker inner =>
    rw [fillPiece_marker, fillPiece_marker, replacement, replacement, replacement?, replacement?,
      fate_inLocale x locale h]

/-- With the name of the resource masked, a segment is the same in all locales. -/
theorem mask_segment_inLocale (token : String) (p : Piece) :
    ((x.inLocale locale).segment p).mask token = (x.segment p).mask token := by
  unfold segment
  cases h : p.asksResource with
  | true => rfl
  | false => rw [fillPiece_inLocale x locale h]

/-- What is put in place of a marker that asks for the resource name is this name. -/
theorem eq_of_resource_mem_segments {s : List Char} {text : String}
    (h : .resource s ∈ x.segments text) :
    s = (x.champion.resourceName x.locale).toList := by
  obtain ⟨p, -, hp⟩ := List.mem_map.1 h
  unfold segment at hp
  split at hp
  · next hr =>
    cases hp
    cases p with
    | literal c => cases hr
    | marker inner =>
      rw [fillPiece_marker, replacement, replacement?, x.fate_resource hr]
      rfl
  · cases hp

end Context

/-! ## Records -/

namespace Champion

variable (c : Champion) (locale locale' : String)

/-- The segments of a string in a filled record, by its path. A string that is left alone is
one segment. -/
def segmentsAt (path : Json.Path) (s : String) : List Segment :=
  match c.contextAt? locale path with
  | some x => x.segments s
  | none => [.other s.toList]

/-- The record that is made of the segments of its strings, each changed by `f`. -/
def ofSegments (f : Segment → Segment) (record : Json) : Json :=
  record.mapTexts fun path s => Segment.text ((c.segmentsAt locale path s).map f)

theorem text_fillAt (path : Json.Path) (s : String) :
    (c.fillAt locale).text path s = Segment.text (c.segmentsAt locale path s) := by
  rw [Json.Filling.text, fillAt, segmentsAt]
  cases c.contextAt? locale path with
  | none => simp [Segment.text, Segment.chars]
  | some x => exact x.fillText_eq_segments s .empty

/-- The locale does not decide which ability a string belongs to and whether it is left
alone. -/
theorem exists_contextAt? (path : Json.Path) : ∃ place : Option (Option Ability),
    ∀ locale, c.contextAt? locale path = place.map fun ability => ⟨c, ability, locale⟩ := by
  match path with
  | [] | .item _ :: _ => exact ⟨none, fun _ => rfl⟩
  | .member field :: path =>
    by_cases hs : field = spellsField
    · subst hs
      match path with
      | [] | .member _ :: _ => exact ⟨none, fun _ => rfl⟩
      | .item slot :: _ => exact ⟨some (c.abilityOfSlot? slot), fun _ => rfl⟩
    · by_cases hp : field = passiveField
      · subst hp
        refine ⟨(c.ability? passiveKey).map some, fun locale => ?_⟩
        rw [contextAt?, contextIn?_passive, Option.map_map]
        rfl
      · exact ⟨some none, fun locale => c.contextIn?_of_ne locale hs hp path⟩

theorem tally_fillAt_locale (path : Json.Path) (s : String) :
    (c.fillAt locale path s).2 = (c.fillAt locale' path s).2 := by
  obtain ⟨place, hplace⟩ := c.exists_contextAt? path
  rw [fillAt, fillAt, hplace, hplace]
  cases place with
  | none => rfl
  | some ability => exact Context.tally_fillText_inLocale ⟨c, ability, locale'⟩ locale s .empty

/-- In two locales a string has the same segments, but for the name of the resource. -/
theorem mask_segmentsAt (token : String) (path : Json.Path) (s : String) :
    (c.segmentsAt locale path s).map (Segment.mask token)
      = (c.segmentsAt locale' path s).map (Segment.mask token) := by
  obtain ⟨place, hplace⟩ := c.exists_contextAt? path
  rw [segmentsAt, segmentsAt, hplace, hplace]
  cases place with
  | none => rfl
  | some ability =>
    dsimp only [Option.map_some]
    rw [Context.segments, Context.segments, List.map_map, List.map_map]
    exact List.map_congr_left fun p _ =>
      Context.mask_segment_inLocale ⟨c, ability, locale'⟩ locale token p

/-- Every name of a resource in a text is that of the champion in the locale. -/
theorem eq_of_resource_mem_segmentsAt {path : Json.Path} {s : String} {name : List Char}
    (h : .resource name ∈ c.segmentsAt locale path s) :
    name = (c.resourceName locale).toList := by
  obtain ⟨place, hplace⟩ := c.exists_contextAt? path
  rw [segmentsAt, hplace] at h
  cases place with
  | none => simp at h
  | some ability => exact Context.eq_of_resource_mem_segments ⟨c, ability, locale⟩ h

/-- A record is filled in with the same tally and to the same shape in every locale, and so are
its strings, segment by segment, but for the name of the resource : with a token for it the
records of two locales are equal. -/
theorem fillRecord_locales (record : Json) (t : Tally) :
    (c.fillRecord locale record t).2 = (c.fillRecord locale' record t).2 ∧
      (c.fillRecord locale record t).1.shape = (c.fillRecord locale' record t).1.shape ∧
      (∀ l, (c.fillRecord l record t).1 = c.ofSegments l id record ∧
        ∀ path s name, .resource name ∈ c.segmentsAt l path s →
          name = (c.resourceName l).toList) ∧
      ∀ token,
        (∀ path s, (c.segmentsAt locale path s).map (Segment.mask token)
          = (c.segmentsAt locale' path s).map (Segment.mask token)) ∧
        c.ofSegments locale (.mask token) record = c.ofSegments locale' (.mask token) record := by
  have hfilled : ∀ l, (c.fillRecord l record t).1 = record.mapTexts (c.fillAt l).text :=
    fun l => by rw [fillRecord_eq_filled, Json.filled]
  refine ⟨?_, ?_, fun l => ⟨?_, fun path s name hname => ?_⟩,
    fun token => ⟨c.mask_segmentsAt locale locale' token, ?_⟩⟩
  · have htally : (c.fillAt locale).tally = (c.fillAt locale').tally :=
      funext fun leaf => c.tally_fillAt_locale locale locale' leaf.path leaf.text
    rw [fillRecord_eq_filled, fillRecord_eq_filled, Json.filled, Json.filled, htally]
  · rw [hfilled, hfilled, Json.shape_mapTexts, Json.shape_mapTexts]
  · rw [hfilled, ofSegments]
    refine congrArg (record.mapTexts ·) (funext fun path => funext fun s => ?_)
    rw [text_fillAt, List.map_id]
  · exact c.eq_of_resource_mem_segmentsAt l hname
  · simp only [ofSegments, c.mask_segmentsAt locale locale' token]

end Champion

end SpellText
