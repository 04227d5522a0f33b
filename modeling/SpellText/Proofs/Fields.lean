import Mathlib.Data.List.Forall2
import SpellText.Record.Spell

/-!
# Fields of records

A record is decoded from the values of its fields (`Record.fieldsOf?`). The part of a
formula is decoded in this way too, as if each of its fields were decoded where it stands
(`Record.part?_eq`), though one pass over the whole value reads all parts in it.

A record with one field left open (`Record.Opening`) is an object or an array like any
other; a value that is put there becomes that field, and the others are what they are
(`Record.Opening.exists_fieldsOf?`).
-/

namespace SpellText.Record

open Formula (Part)

universe u v

variable {α : Type u} {β : Type v}

/-! ## Records by their fields -/

/-- The values of the fields of a record. -/
def fieldsOf? (fields : List (List String)) (v : Json) : Option (List (Option Json)) :=
  (shape? v).bind (slots? fields)

theorem decode_eq (fields : List (List String)) (build : List (Option Json) → Option β)
    (v : Json) : ((shape? v).bind fun s => (slots? fields s).bind build)
      = (fieldsOf? fields v).bind build :=
  (Option.bind_assoc _ _ _).symm

/-- The same record over other forms of its fields. -/
def Shape.map (f : α → β) : Shape α → Shape β
  | .members ms => .members (ms.map fun m => (m.1, f m.2))
  | .items xs => .items (xs.map f)

theorem slot?_map (f : α → β) (names : List String) (ms : List (String × α)) :
    slot? names (ms.map fun m => (m.1, f m.2)) = (slot? names ms).map (Option.map f) := by
  have hcomp : ((fun m : String × β => names.contains m.1) ∘ fun m : String × α => (m.1, f m.2))
      = fun m => names.contains m.1 := rfl
  rw [slot?, slot?, List.filter_map, hcomp]
  cases ms.filter fun m => names.contains m.1 with
  | nil => rfl
  | cons m rest => cases rest <;> rfl

theorem slots?_map (f : α → β) (fields : List (List String)) (s : Shape α) :
    slots? fields (s.map f) = (slots? fields s).map (List.map (Option.map f)) := by
  cases s with
  | members ms =>
    show fields.mapM (slot? · (ms.map fun m => (m.1, f m.2))) = _
    simp only [slot?_map]
    show _ = (fields.mapM (slot? · ms)).map (List.map (Option.map f))
    induction fields with
    | nil => rfl
    | cons names fields ih =>
      rw [List.mapM_cons, List.mapM_cons, ih]
      cases slot? names ms with
      | none => rfl
      | some o => cases fields.mapM (slot? · ms) <;> rfl
  | items xs =>
    simp only [Shape.map, slots?, List.length_map]
    split
    · rw [Option.map_some, List.map_append, List.map_replicate, List.map_map, List.map_map]
      rfl
    · rfl

/-! ## Parts of formulas -/

theorem json_reading (v : Json) : (reading v).json = v := by
  cases v <;> rfl

theorem readings_eq (items : List Json) : readings items = items.map reading := by
  induction items with
  | nil => rfl
  | cons v rest ih => rw [readings, ih, List.map_cons]

theorem memberReadings_eq (members : List (String × Json)) :
    memberReadings members = members.map fun m => (m.1, reading m.2) := by
  induction members with
  | nil => rfl
  | cons m rest ih => rw [memberReadings, ih, List.map_cons]

/-- The parts of a list are decoded from its readings. -/
theorem parts?_reading (v : Json) : (reading v).parts? = list? part? v := by
  cases v with
  | array items =>
    show (readings items).mapM (·.part?) = items.mapM part?
    rw [readings_eq, List.mapM_map]
    rfl
  | _ => rfl

theorem field?_map_reading {γ : Type} (decode : Json → Option γ) (read : Reading → Option γ)
    (h : ∀ v, read (reading v) = decode v) (o : Option Json) :
    Reading.field? read (o.map reading) = optional? decode o := by
  cases o with
  | none => rfl
  | some v =>
    rw [Option.map_some, Reading.field?, json_reading, h]
    cases v <;> rfl

/-- The decoded fields of a part. -/
structure PartFields where
  kind : Option String
  name : Option String
  x : Option Float
  left : Option Part
  right : Option Part
  subparts : Option (List Part)
  parts : Option (List Part)

/-- The part with these fields. -/
def PartFields.part (f : PartFields) : Part :=
  partOfKind f.kind f.name f.x f.left f.right f.subparts f.parts

/-- The fields of a part, each decoded where it stands. -/
def partFields? : List (Option Json) → Option PartFields
  | [kind, name, x, left, right, subparts, parts] => do
    return {
      kind := ← optional? Json.string? kind
      name := ← optional? Json.string? name
      x := ← optional? Json.float? x
      left := ← optional? part? left
      right := ← optional? part? right
      subparts := ← optional? (list? part?) subparts
      parts := ← optional? (list? part?) parts }
  | _ => none

/-- A part is decoded from the readings of its fields. -/
theorem partOf?_map_reading (s : Shape Json) : partOf? (s.map reading)
    = ((slots? partFields s).bind partFields?).map PartFields.part := by
  unfold partOf?
  rw [slots?_map]
  cases slots? partFields s with
  | none => rfl
  | some ss =>
    match ss with
    | [kind, name, x, left, right, subparts, parts] =>
      have hs := field?_map_reading Json.string? (·.json.string?)
        fun v => congrArg Json.string? (json_reading v)
      have hf := field?_map_reading Json.float? (·.json.float?)
        fun v => congrArg Json.float? (json_reading v)
      have hp := field?_map_reading part? (·.part?) fun _ => rfl
      have hps := field?_map_reading (list? part?) (·.parts?) parts?_reading
      simp only [Option.map_some, List.map_cons, List.map_nil, Option.bind_eq_bind,
        Option.bind_some, hs, hf, hp, hps, partFields?, Option.map_bind, Function.comp_def]
      rfl
    | [] | [_] | [_, _] | [_, _, _] | [_, _, _, _] | [_, _, _, _, _] | [_, _, _, _, _, _]
    | _ :: _ :: _ :: _ :: _ :: _ :: _ :: _ :: _ => rfl

/-- A part is decoded from its fields. -/
theorem part?_eq (v : Json) :
    part? v = ((fieldsOf? partFields v).bind partFields?).map PartFields.part := by
  cases v with
  | object members =>
    show partOf? (.members (memberReadings members)) = _
    rw [memberReadings_eq]
    exact partOf?_map_reading (.members members)
  | array items =>
    show partOf? (.items (readings items)) = _
    rw [readings_eq]
    exact partOf?_map_reading (.items items)
  | _ => rfl

/-! ## Lists of fields -/

/-- All fields of a list are found or none. -/
theorem mapM_eq_some_iff {α β : Type} {f : α → Option β} {xs : List α} {ys : List β} :
    xs.mapM f = some ys ↔ List.Forall₂ (fun x y => f x = some y) xs ys := by
  induction xs generalizing ys with
  | nil => cases ys <;> simp
  | cons x xs ih =>
    cases ys with
    | nil => simp [List.mapM_cons, Option.bind_eq_some_iff]
    | cons y ys =>
      simp [List.mapM_cons, Option.bind_eq_some_iff, List.forall₂_cons, ← ih]

theorem mapM_congr_of_mem {α β : Type} {f g : α → Option β} {xs : List α}
    (h : ∀ x ∈ xs, f x = g x) : xs.mapM f = xs.mapM g := by
  induction xs with
  | nil => rfl
  | cons x xs ih =>
    rw [List.mapM_cons, List.mapM_cons, h x List.mem_cons_self,
      ih fun y hy => h y (List.mem_cons_of_mem x hy)]

/-! ## Records with an open field -/

/-- A record whose field `name` is left open. In an array of fields it comes at `index`. -/
inductive Opening (index : Nat) (name : String)
  | member (before after : List (String × Json))
  | item (before after : List Json) (length_before : before.length = index)

namespace Opening

variable {index : Nat} {name : String}

/-- The record with a value in its open field. -/
def fill : Opening index name → Json → Json
  | .member before after, v => .object (before ++ (name, v) :: after)
  | .item before after _, v => .array (before ++ v :: after)

theorem fill_ne_null (o : Opening index name) (v : Json) : o.fill v ≠ .null := by
  cases o <;> nofun

/-- The open field is not among fields with other names. -/
theorem slot?_fill_of_notMem {names : List String} (h : name ∉ names)
    (before after : List (String × Json)) (v : Json) :
    slot? names (before ++ (name, v) :: after) = slot? names (before ++ after) := by
  have hf : names.contains name = false := by simpa using h
  simp only [slot?, List.filter_append, List.filter_cons, hf, if_neg Bool.false_ne_true]

/-- A value that is put into the open field is found there, where no other member has one of
the names of the field. -/
theorem slot?_fill {names : List String} (h : name ∈ names)
    (before after : List (String × Json)) (v : Json) :
    slot? names (before ++ (name, v) :: after)
      = if (before ++ after).filter (fun m => names.contains m.1) = [] then some (some v)
        else none := by
  have ht : names.contains name = true := by simpa using h
  simp only [slot?, List.filter_append, List.filter_cons, ht, if_pos]
  cases before.filter fun m => names.contains m.1 with
  | nil => cases after.filter fun m => names.contains m.1 <;> rfl
  | cons m rest => cases rest <;> rfl

/-- Whatever is put into the open field, the fields around it are the same. -/
theorem exists_fieldsOf? (o : Opening index name) {names : List String}
    (fs gs : List (List String)) (hi : fs.length = index) (hm : name ∈ names)
    (hn : ∀ others ∈ fs ++ gs, name ∉ others) :
    ∃ others : Option (List (Option Json) × List (Option Json)),
      (∀ ls rs, others = some (ls, rs) → ls.length = fs.length ∧ rs.length = gs.length) ∧
        ∀ v, fieldsOf? (fs ++ names :: gs) (o.fill v)
          = others.map fun lr => lr.1 ++ some v :: lr.2 := by
  cases o with
  | member before after =>
    refine ⟨if (before ++ after).filter (fun m => names.contains m.1) = [] then
        (fs.mapM (slot? · (before ++ after))).bind fun ls =>
          (gs.mapM (slot? · (before ++ after))).map (ls, ·)
      else none, fun ls rs h => ?_, fun v => ?_⟩
    · obtain ⟨-, h⟩ := Option.ite_none_right_eq_some.1 h
      obtain ⟨ls', hl, h⟩ := Option.bind_eq_some_iff.1 h
      obtain ⟨rs', hr, he⟩ := Option.map_eq_some_iff.1 h
      cases he
      exact ⟨(mapM_eq_some_iff.1 hl).length_eq.symm, (mapM_eq_some_iff.1 hr).length_eq.symm⟩
    · have hother : ∀ others ∈ fs ++ gs, slot? others (before ++ (name, v) :: after)
          = slot? others (before ++ after) := fun others ho =>
        slot?_fill_of_notMem (hn others ho) before after v
      show (fs ++ names :: gs).mapM (slot? · (before ++ (name, v) :: after)) = _
      rw [List.mapM_append, List.mapM_cons, slot?_fill hm,
        mapM_congr_of_mem fun others ho => hother others (List.mem_append_left gs ho),
        mapM_congr_of_mem fun others ho => hother others (List.mem_append_right fs ho)]
      split
      · cases fs.mapM (slot? · (before ++ after)) with
        | none => rfl
        | some ls => cases gs.mapM (slot? · (before ++ after)) <;> rfl
      · cases fs.mapM (slot? · (before ++ after)) <;> rfl
  | item before after hlen =>
    refine ⟨if after.length ≤ gs.length then
        some (before.map some, after.map some ++ List.replicate (gs.length - after.length) none)
      else none, fun ls rs h => ?_, fun v => ?_⟩
    · obtain ⟨hle, he⟩ := Option.ite_none_right_eq_some.1 h
      cases he
      simp
      omega
    · show slots? (fs ++ names :: gs) (.items (before ++ v :: after)) = _
      have hl : (before ++ v :: after).length = fs.length + 1 + after.length := by
        simp
        omega
      have hf : (fs ++ names :: gs).length = fs.length + 1 + gs.length := by
        simp
        omega
      rw [slots?, hl, hf]
      by_cases hle : after.length ≤ gs.length
      · rw [if_pos (by omega), if_pos hle, Nat.add_sub_add_left]
        simp
      · rw [if_neg (by omega), if_neg hle]
        rfl

end Opening

end SpellText.Record
