import Mathlib.Logic.Relation
import SpellText.Proofs.Places

/-!
# Empty lists and maps

A list or a map in a record may be written as `null` where it is empty. `Record.Refills` writes
one such `null` out, in a record of any type and at any depth in it, and
`Record.decode?_refilled` says that this does not show in what is decoded, with one exception.

The exception is the list of parts in the part of a formula. It decides what a part of a kind
without a rule is : with parts it is their sum, and without parts it is unsupported. Here `null`
stands for no list, and not for an empty one (`Record.exists_null_parts`).
-/

namespace SpellText.Record

open Formula (Part)
open Relation (ReflTransGen)

/-! ## What the fields of records hold -/

/-- The records in game data that hold lists or maps. -/
inductive RecordType
  | championSheet
  | spellSheet
  | spellData
  | namedRanks
  | formula
  | part

/-- What a field of a record may hold. -/
inductive Content
  /-- Neither a list nor a map, nor a record that holds one. -/
  | plain
  | record (r : RecordType)
  | list (item? : Option RecordType)
  | map (value? : Option RecordType)
  /-- The list of parts that decides what a part is. -/
  | parts

/-- The records that are the items of a list. -/
def Content.item? : Content → Option RecordType
  | .list item? => item?
  | .parts => some .part
  | _ => none

namespace RecordType

/-- The fields of a record in order, each under its possible names. -/
def fields : RecordType → List (List String × Content)
  | championSheet => [(["id"], .plain), (["spells"], .list (some spellSheet)),
    (["passive"], .plain), (["stats"], .map none)]
  | spellSheet => [(["id"], .plain), (["cooldown"], .list none), (["cost"], .list none),
    (["range"], .list none), (["effect"], .list none), (["effectBurn"], .list none)]
  | spellData => [(["DataValues", "mDataValues"], .list (some namedRanks)),
    (["mSpellCalculations"], .map (some formula))]
  | namedRanks => [(["mName"], .plain), (["mValues"], .list none)]
  | formula => [(["mFormulaParts"], .list (some part))]
  | part => [(["__type"], .plain), (["mDataValue"], .plain), (["mNumber"], .plain),
    (["mPart1"], .record part), (["mPart2"], .record part), (["mSubparts"], .list (some part)),
    (["mFormulaParts"], .parts)]

/-- What a record stands for. -/
def Decoded : RecordType → Type
  | championSheet => ChampionSheet
  | spellSheet => SpellSheet
  | spellData => SpellData
  | namedRanks => NamedRanks
  | formula => Formula
  | part => Part

/-- Decode a record. -/
def decode? : (r : RecordType) → Json → Option r.Decoded
  | championSheet => championSheet?
  | spellSheet => spellSheet?
  | spellData => spellData?
  | namedRanks => namedRanks?
  | formula => formula?
  | part => part?

/-- The field in place `index` holds `c`, and `name` is a name of it. -/
def Holds (r : RecordType) (index : Nat) (name : String) (c : Content) : Prop :=
  ∃ names, r.fields[index]? = some (names, c) ∧ name ∈ names

end RecordType

/-! ## Writing out what is empty -/

/-- The second value is the first one, a record, with an empty list or map in place of a `null`
in one field at any depth. The parts of a part are written out only where they are allowed to
be. -/
inductive Refills (allowed : Json → Prop) : RecordType → Json → Json → Prop
  | list {r : RecordType} {index : Nat} {name : String} {item? : Option RecordType}
    (o : Opening index name) : r.Holds index name (.list item?) →
      Refills allowed r (o.fill .null) (o.fill (.array []))
  | map {r : RecordType} {index : Nat} {name : String} {value? : Option RecordType}
    (o : Opening index name) : r.Holds index name (.map value?) →
      Refills allowed r (o.fill .null) (o.fill (.object []))
  | parts (o : Opening 6 "mFormulaParts") : allowed (o.fill .null) →
      Refills allowed .part (o.fill .null) (o.fill (.array []))
  | record {r s : RecordType} {index : Nat} {name : String} {v w : Json}
    (o : Opening index name) : r.Holds index name (.record s) → Refills allowed s v w →
      Refills allowed r (o.fill v) (o.fill w)
  | item {r s : RecordType} {index : Nat} {name : String} {c : Content} {v w : Json}
    (o : Opening index name) (before after : List Json) : r.Holds index name c →
      c.item? = some s → Refills allowed s v w →
        Refills allowed r (o.fill (.array (before ++ v :: after)))
          (o.fill (.array (before ++ w :: after)))
  | value {r s : RecordType} {index : Nat} {name : String} {v w : Json}
    (o : Opening index name) (before : List (String × Json)) (key : String)
    (after : List (String × Json)) : r.Holds index name (.map (some s)) →
      Refills allowed s v w →
        Refills allowed r (o.fill (.object (before ++ (key, v) :: after)))
          (o.fill (.object (before ++ (key, w) :: after)))

theorem Refills.ne_null {allowed : Json → Prop} {r : RecordType} {v w : Json}
    (h : Refills allowed r v w) : v ≠ .null ∧ w ≠ .null := by
  cases h <;> exact ⟨Opening.fill_ne_null _ _, Opening.fill_ne_null _ _⟩

/-! ## Fields that are read alike -/

/-- The values of an object. -/
def values? {β : Type} (decode : Json → Option β) (v : Json) : Option (List (String × β)) :=
  v.object?.bind (List.mapM fun m => (decode m.2).map (m.1, ·))

/-- The values of a field are read alike. -/
def Content.Alike : Content → Option Json → Option Json → Prop
  | .plain, x, y => x = y
  | .record s, x, y => optional? s.decode? x = optional? s.decode? y
  | .list none, x, y => defaulted? [] Json.array? x = defaulted? [] Json.array? y
  | .list (some s), x, y =>
    defaulted? [] (list? s.decode?) x = defaulted? [] (list? s.decode?) y
  | .map none, x, y => defaulted? [] Json.object? x = defaulted? [] Json.object? y
  | .map (some s), x, y =>
    defaulted? [] (values? s.decode?) x = defaulted? [] (values? s.decode?) y
  | .parts, x, y => optional? (list? part?) x = optional? (list? part?) y

theorem Content.Alike.refl (c : Content) (x : Option Json) : c.Alike x x := by
  cases c with
  | list item? => cases item? <;> rfl
  | map value? => cases value? <;> rfl
  | _ => rfl

/-- The values of all fields are read alike. -/
inductive AllAlike : List Content → List (Option Json) → List (Option Json) → Prop
  | nil : AllAlike [] [] []
  | cons {c : Content} {cs : List Content} {x y : Option Json} {xs ys : List (Option Json)} :
    c.Alike x y → AllAlike cs xs ys → AllAlike (c :: cs) (x :: xs) (y :: ys)

theorem AllAlike.refl : ∀ {cs : List Content} {xs : List (Option Json)},
    xs.length = cs.length → AllAlike cs xs xs
  | [], [], _ => .nil
  | c :: _, x :: _, h => .cons (.refl c x) (AllAlike.refl (Nat.succ.inj h))

/-- Fields are read alike if one of them is and the others are the same. -/
theorem AllAlike.of_one {c : Content} {x y : Option Json} (h : c.Alike x y)
    {after : List Content} {rs : List (Option Json)} (hr : rs.length = after.length) :
    ∀ {before : List Content} {ls : List (Option Json)}, ls.length = before.length →
      AllAlike (before ++ c :: after) (ls ++ x :: rs) (ls ++ y :: rs)
  | [], [], _ => .cons h (.refl hr)
  | b :: _, l :: _, hl => .cons (.refl b l) (AllAlike.of_one h hr (Nat.succ.inj hl))

/-- A list of plain values is read from its items. -/
theorem defaulted?_list? {β : Type} (decode : Json → Option β) (x : Option Json) :
    defaulted? [] (list? decode) x
      = (defaulted? [] Json.array? x).bind (List.mapM decode) := by
  cases x with
  | none => rfl
  | some v =>
    cases v with
    | array items =>
      show ((items.mapM decode).map some).map (·.getD []) = items.mapM decode
      cases items.mapM decode <;> rfl
    | _ => rfl

/-- Lists that are read alike are decoded alike, whatever their items are. -/
theorem Content.Alike.list {x y : Option Json} (h : (Content.list none).Alike x y) {β : Type}
    (decode : Json → Option β) :
    defaulted? [] (list? decode) x = defaulted? [] (list? decode) y := by
  rw [defaulted?_list?, defaulted?_list?, show defaulted? [] Json.array? x = _ from h]

/-- Subparts that are left out count as an empty list. -/
theorem partOfKind_congr_getD {kind name : Option String} {x : Option Float}
    {left right : Option Part} {subparts subparts' parts : Option (List Part)}
    (h : subparts.getD [] = subparts'.getD []) :
    partOfKind kind name x left right subparts parts
      = partOfKind kind name x left right subparts' parts := by
  by_cases hk : kind = some "SumOfSubPartsCalculationPart"
  · subst hk
    exact congrArg Part.sum h
  · exact partOfKind_congr_subparts hk

theorem gathered_congr_subparts {kind name : Option (Option String)} {x : Option (Option Float)}
    {left right : Option (Option Part)} {subparts subparts' parts : Option (Option (List Part))}
    (h : subparts.map (·.getD []) = subparts'.map (·.getD [])) :
    (gathered kind name x left right subparts parts).map PartFields.part
      = (gathered kind name x left right subparts' parts).map PartFields.part := by
  cases subparts with
  | none =>
    obtain rfl : subparts' = none := Option.map_eq_none_iff.1 h.symm
    rfl
  | some ps =>
    obtain ⟨ps', rfl, hps⟩ := Option.map_eq_some_iff.1 h.symm
    cases kind <;> cases name <;> cases x <;> cases left <;> cases right <;> cases parts <;>
      first | rfl | exact congrArg some (partOfKind_congr_getD hps.symm)

/-- A record is decoded from its fields, and what it stands for depends only on how they are
read. -/
theorem RecordType.exists_build (r : RecordType) :
    ∃ build : List (Option Json) → Option r.Decoded,
      (∀ v, r.decode? v = (fieldsOf? (r.fields.map Prod.fst) v).bind build) ∧
        ∀ {xs ys}, AllAlike (r.fields.map Prod.snd) xs ys → build xs = build ys := by
  cases r with
  | championSheet =>
    refine ⟨_, fun v => decode_eq _ _ v, fun {xs ys} h => ?_⟩
    obtain _ | ⟨rfl, _ | ⟨hspells, _ | ⟨rfl, _ | ⟨hstats, _ | _⟩⟩⟩⟩ := h
    have hspells : defaulted? [] (list? spellSheet?) _ = defaulted? [] (list? spellSheet?) _ :=
      hspells
    have hstats : defaulted? [] Json.object? _ = defaulted? [] Json.object? _ := hstats
    dsimp only
    rw [hspells, hstats]
  | spellSheet =>
    refine ⟨_, fun v => decode_eq _ _ v, fun {xs ys} h => ?_⟩
    obtain _ | ⟨rfl, _ | ⟨hcool, _ | ⟨hcost, _ | ⟨hrange, _ | ⟨heff, _ | ⟨hburn, _ | _⟩⟩⟩⟩⟩⟩ := h
    dsimp only [ranks?]
    rw [hcool.list, hcost.list, hrange.list, heff.list, hburn.list]
  | spellData =>
    refine ⟨_, fun v => decode_eq _ _ v, fun {xs ys} h => ?_⟩
    obtain _ | ⟨hvalues, _ | ⟨hformulas, _ | _⟩⟩ := h
    have hvalues : defaulted? [] (list? namedRanks?) _ = defaulted? [] (list? namedRanks?) _ :=
      hvalues
    have hformulas : defaulted? [] formulas? _ = defaulted? [] formulas? _ := hformulas
    dsimp only
    rw [hvalues, hformulas]
  | namedRanks =>
    refine ⟨_, fun v => decode_eq _ _ v, fun {xs ys} h => ?_⟩
    obtain _ | ⟨rfl, _ | ⟨hvalues, _ | _⟩⟩ := h
    dsimp only [ranks?]
    rw [hvalues.list]
  | formula =>
    refine ⟨_, fun v => decode_eq _ _ v, fun {xs ys} h => ?_⟩
    obtain _ | ⟨hparts, _ | _⟩ := h
    have hparts : defaulted? [] (list? part?) _ = defaulted? [] (list? part?) _ := hparts
    dsimp only
    rw [hparts]
  | part =>
    refine ⟨fun xs => (partFields? xs).map PartFields.part, fun v => ?_, fun {xs ys} h => ?_⟩
    · exact (part?_eq v).trans Option.map_bind
    · obtain _ | ⟨rfl, _ | ⟨rfl, _ | ⟨rfl, _ | ⟨hleft, _ | ⟨hright, _ | ⟨hsubparts, _ | ⟨hparts,
        _ | _⟩⟩⟩⟩⟩⟩⟩ := h
      have hleft : optional? part? _ = optional? part? _ := hleft
      have hright : optional? part? _ = optional? part? _ := hright
      have hparts : optional? (list? part?) _ = optional? (list? part?) _ := hparts
      show (gathered _ _ _ _ _ _ _).map PartFields.part = (gathered _ _ _ _ _ _ _).map _
      rw [hleft, hright, hparts]
      exact gathered_congr_subparts hsubparts

/-- Every name belongs to one field of a record. -/
theorem RecordType.nodup_names (r : RecordType) : (r.fields.flatMap Prod.fst).Nodup := by
  cases r <;> decide

/-- The fields around one that holds something have other names. -/
theorem RecordType.Holds.exists_split {r : RecordType} {index : Nat} {name : String}
    {c : Content} (h : r.Holds index name c) :
    ∃ before names after, r.fields = before ++ (names, c) :: after ∧ before.length = index ∧
      name ∈ names ∧ ∀ others ∈ before.map Prod.fst ++ after.map Prod.fst, name ∉ others := by
  obtain ⟨names, hf, hn⟩ := h
  obtain ⟨hi, hget⟩ := List.getElem?_eq_some_iff.1 hf
  have hsplit : r.fields = r.fields.take index ++ (names, c) :: r.fields.drop (index + 1) := by
    rw [← hget, ← List.drop_eq_getElem_cons hi, List.take_append_drop]
  have hlen : (r.fields.take index).length = index := List.length_take_of_le (Nat.le_of_lt hi)
  refine ⟨_, names, _, hsplit, hlen, hn, fun others ho hother => ?_⟩
  have hnodup := r.nodup_names
  rw [hsplit, List.flatMap_append, List.flatMap_cons] at hnodup
  obtain ⟨-, hrest, hbefore⟩ := List.nodup_append.1 hnodup
  obtain ⟨-, -, hafter⟩ := List.nodup_append.1 hrest
  rcases List.mem_append.1 ho with ho | ho
  · obtain ⟨f, hf, rfl⟩ := List.mem_map.1 ho
    exact hbefore name (List.mem_flatMap.2 ⟨f, hf, hother⟩) name (List.mem_append_left _ hn) rfl
  · obtain ⟨f, hf, rfl⟩ := List.mem_map.1 ho
    exact hafter name hn name (List.mem_flatMap.2 ⟨f, hf, hother⟩) rfl

/-- A record with one field open stands for the same whatever is put in, as long as it is read
alike. -/
theorem RecordType.decode?_fill_congr {r : RecordType} {index : Nat} {name : String}
    {c : Content} (hc : r.Holds index name c) (o : Opening index name) {v w : Json}
    (h : c.Alike (some v) (some w)) : r.decode? (o.fill v) = r.decode? (o.fill w) := by
  obtain ⟨before, names, after, hsplit, hlen, hn, hothers⟩ := hc.exists_split
  obtain ⟨build, hbuild, hcongr⟩ := r.exists_build
  obtain ⟨others, hlens, hfields⟩ := o.exists_fieldsOf? (before.map Prod.fst)
    (after.map Prod.fst) (by rw [List.length_map, hlen]) hn hothers
  rw [hsplit, List.map_append, List.map_cons] at hcongr
  rw [hbuild, hbuild, hsplit, List.map_append, List.map_cons, hfields, hfields]
  cases others with
  | none => rfl
  | some lr =>
    obtain ⟨hl, hr⟩ := hlens lr.1 lr.2 rfl
    rw [List.length_map] at hl hr
    refine hcongr (.of_one h ?_ ?_)
    · rw [List.length_map, hr]
    · rw [List.length_map, hl]

/-! ## Records with something written out -/

theorem optional?_congr {β : Type} {decode : Json → Option β} {v w : Json} (hv : v ≠ .null)
    (hw : w ≠ .null) (h : decode v = decode w) :
    optional? decode (some v) = optional? decode (some w) := by
  rw [optional?_of_ne_null decode hv, optional?_of_ne_null decode hw, h]

theorem defaulted?_congr {β : Type} (default : β) {decode : Json → Option β} {v w : Json}
    (hv : v ≠ .null) (hw : w ≠ .null) (h : decode v = decode w) :
    defaulted? default decode (some v) = defaulted? default decode (some w) := by
  rw [defaulted?, defaulted?, optional?_congr hv hw h]

/-- A list is decoded alike with an item that is. -/
theorem list?_congr {β : Type} {decode : Json → Option β} {v w : Json} (h : decode v = decode w)
    (before after : List Json) :
    list? decode (.array (before ++ v :: after))
      = list? decode (.array (before ++ w :: after)) := by
  rw [list?_append_cons, list?_append_cons, h]

/-- An object is decoded alike with a value that is. -/
theorem values?_congr {β : Type} {decode : Json → Option β} {v w : Json} (h : decode v = decode w)
    (before : List (String × Json)) (key : String) (after : List (String × Json)) :
    values? decode (.object (before ++ (key, v) :: after))
      = values? decode (.object (before ++ (key, w) :: after)) := by
  show (before ++ (key, v) :: after).mapM _ = (before ++ (key, w) :: after).mapM _
  rw [List.mapM_append, List.mapM_append, List.mapM_cons, List.mapM_cons, h]

/-- The kind of the part that a record stands for, if it has one. -/
def kind? (v : Json) : Option String :=
  match fieldsOf? partFields v with
  | some (some (.string kind) :: _) => some kind
  | _ => none

/-- The part that a record stands for is of a kind with a rule. -/
def HasRule (v : Json) : Prop := ∃ kind ∈ ruledKinds, kind? v = some kind

/-- A part without a list of parts, and the same part with an empty one. -/
theorem Opening.exists_no_parts (o : Opening 6 "mFormulaParts") : ∃ f? : Option PartFields,
    part? (o.fill .null) = f?.map PartFields.part ∧
      part? (o.fill (.array [])) = f?.map (fun f => (f.withParts []).part) ∧
      ∀ f, f? = some f → f.parts = none ∧ kind? (o.fill .null) = f.kind := by
  obtain ⟨others, hlens, hfields⟩ := o.exists_fieldsOf?
    [["__type"], ["mDataValue"], ["mNumber"], ["mPart1"], ["mPart2"], ["mSubparts"]] []
    rfl (List.mem_singleton_self _) (by decide)
  have hfields : ∀ v, fieldsOf? partFields (o.fill v) = others.map fun lr =>
    lr.1 ++ some v :: lr.2 := hfields
  have hnull : part? (o.fill .null) = _ := part?_eq _
  have hempty : part? (o.fill (.array [])) = _ := part?_eq _
  rw [hfields] at hnull hempty
  cases others with
  | none => exact ⟨none, hnull, hempty, nofun⟩
  | some lr =>
    obtain ⟨ls, rs⟩ := lr
    obtain ⟨hl, hr⟩ := hlens ls rs rfl
    match ls, rs, hl, hr with
    | [kind, name, x, left, right, subparts], [], _, _ =>
      refine ⟨gathered (optional? Json.string? kind) (optional? Json.string? name)
        (optional? Json.float? x) (optional? part? left) (optional? part? right)
        (optional? (list? part?) subparts) (some none), hnull, ?_, fun f hf => ?_⟩
      · refine hempty.trans ?_
        show (gathered _ _ _ _ _ _ (some (some []))).map PartFields.part = _
        rw [show some (some []) = (some ([] : List Part)).map some from rfl, gathered_parts]
        cases gathered _ _ _ _ _ _ _ <;> rfl
      · obtain ⟨hkind, -, -, -, -, -, hparts⟩ := gathered_eq_some hf
        refine ⟨Option.some.inj hparts.symm, ?_⟩
        rw [kind?, hfields]
        cases kind with
        | none => exact Option.some.inj hkind
        | some k =>
          cases k with
          | string k => exact Option.some.inj hkind
          | null => exact Option.some.inj hkind
          | _ => nomatch hkind

/-- Where the kind of a part has a rule, an empty list of parts is as good as none. -/
theorem Opening.part?_parts_of_hasRule (o : Opening 6 "mFormulaParts")
    (h : HasRule (o.fill .null)) : part? (o.fill .null) = part? (o.fill (.array [])) := by
  obtain ⟨f?, hnull, hempty, hf⟩ := o.exists_no_parts
  rw [hnull, hempty]
  cases f? with
  | none => rfl
  | some f =>
    obtain ⟨-, hkind⟩ := hf f rfl
    obtain ⟨kind, hrule, hk⟩ := h
    refine congrArg some ?_
    simp only [PartFields.part, PartFields.withParts, ← hkind, hk]
    exact partOfKind_congr_parts hrule

/-- Where the kind of a part has none, the part is unsupported without a list of parts and an
empty sum with an empty one, unless it is no part at all. -/
theorem Opening.part?_parts_of_not_hasRule (o : Opening 6 "mFormulaParts")
    (h : ¬ HasRule (o.fill .null)) :
    part? (o.fill .null) = none ∧ part? (o.fill (.array [])) = none ∨
      part? (o.fill .null)
          = some (.unsupported ((kind? (o.fill .null)).getD "<untyped>")) ∧
        part? (o.fill (.array [])) = some (.sum []) := by
  obtain ⟨f?, hnull, hempty, hf⟩ := o.exists_no_parts
  rw [hnull, hempty]
  cases f? with
  | none => exact .inl ⟨rfl, rfl⟩
  | some f =>
    obtain ⟨hparts, hkind⟩ := hf f rfl
    have hr : ∀ k ∈ ruledKinds, f.kind ≠ some k := fun k hk he => h ⟨k, hk, hkind.trans he⟩
    refine .inr ⟨congrArg some ?_, congrArg some (partOfKind_of_unruled hr)⟩
    rw [PartFields.part, hparts, hkind]
    exact partOfKind_of_unruled hr

/-- Written out in one place, a record stands for the same. -/
theorem decode?_of_refills {r : RecordType} {v w : Json} (h : Refills HasRule r v w) :
    r.decode? v = r.decode? w := by
  induction h with
  | @list r _ _ item? o hc =>
    refine RecordType.decode?_fill_congr hc o ?_
    cases item? <;> rfl
  | @map r _ _ value? o hc =>
    refine RecordType.decode?_fill_congr hc o ?_
    cases value? <;> rfl
  | parts o ha => exact o.part?_parts_of_hasRule ha
  | @record r s _ _ v w o hc hr ih =>
    refine RecordType.decode?_fill_congr hc o ?_
    exact optional?_congr hr.ne_null.1 hr.ne_null.2 ih
  | @item r s _ _ c v w o before after hc hs _ ih =>
    refine RecordType.decode?_fill_congr hc o ?_
    have hlist := list?_congr ih before after
    cases c with
    | list item? =>
      obtain rfl : item? = some s := hs
      exact defaulted?_congr [] nofun nofun hlist
    | parts =>
      obtain rfl : RecordType.part = s := Option.some.inj hs
      exact optional?_congr nofun nofun hlist
    | _ => cases hs
  | @value r s _ _ v w o before key after hc _ ih =>
    exact RecordType.decode?_fill_congr hc o
      (defaulted?_congr [] nofun nofun (values?_congr ih before key after))

/-- What two records stand for that differ in the list of parts of a part without a rule. -/
theorem Opening.exists_hole_of_not_hasRule {o : Opening 6 "mFormulaParts"}
    (h : ¬ HasRule (o.fill .null)) {α β : Type} {decode : Json → Option β} {fill : α → Part → β}
    {c : Json → Json} (hc : ∃ h? : Option α, ∀ v, v ≠ .null →
      decode (c v) = h?.bind fun h => (part? v).map (fill h)) :
    ∃ h? : Option α,
      decode (c (o.fill .null)) = h?.map
        (fill · (.unsupported ((kind? (o.fill .null)).getD "<untyped>"))) ∧
      decode (c (o.fill (.array []))) = h?.map (fill · (.sum [])) := by
  obtain ⟨h?, hc⟩ := hc
  rw [hc _ (o.fill_ne_null _), hc _ (o.fill_ne_null _)]
  rcases o.part?_parts_of_not_hasRule h with ⟨hnull, hempty⟩ | ⟨hnull, hempty⟩
  · rw [hnull, hempty]
    exact ⟨none, by cases h? <;> rfl, by cases h? <;> rfl⟩
  · rw [hnull, hempty]
    exact ⟨h?, by cases h? <;> rfl, by cases h? <;> rfl⟩

/-- Any number of empty lists and maps may be written out in a record or left `null`. The one
exception is the list of parts of a part whose kind has no rule : that part is unsupported with
`null` and an empty sum with an empty list, wherever it stands, and the rest is the same. -/
theorem decode?_refilled (r : RecordType) (v w : Json) :
    (ReflTransGen (Refills HasRule r) v w → r.decode? v = r.decode? w) ∧
    ∀ o : Opening 6 "mFormulaParts", ¬ HasRule (o.fill .null) →
      (∀ c : PartPlace, ∃ h? : Option Part.Hole,
        part? (c.fill (o.fill .null)) = h?.map
          (·.fill (.unsupported ((kind? (o.fill .null)).getD "<untyped>"))) ∧
        part? (c.fill (o.fill (.array []))) = h?.map (·.fill (.sum []))) ∧
      ∀ c : SpellPlace, ∃ h? : Option SpellData.Hole,
        spellData? (c.fill (o.fill .null)) = h?.map
          (·.fill (.unsupported ((kind? (o.fill .null)).getD "<untyped>"))) ∧
        spellData? (c.fill (o.fill (.array []))) = h?.map (·.fill (.sum [])) := by
  refine ⟨fun h => ?_, fun o h => ⟨fun c => ?_, fun c => ?_⟩⟩
  · induction h with
    | refl => rfl
    | tail _ hs ih => exact ih.trans (decode?_of_refills hs)
  · exact Opening.exists_hole_of_not_hasRule h c.exists_part?_fill
  · exact Opening.exists_hole_of_not_hasRule h c.exists_spellData?_fill

/-- A named number. -/
def damageRanks (ranks : Json) : Json :=
  .object [("mName", .string "Damage"), ("mValues", ranks)]

/-- The part of a formula that is the named number. -/
def damagePart : Json :=
  .object [("__type", .string "NamedDataValueCalculationPart"), ("mDataValue", .string "Damage")]

/-- A spell with a named number and a formula of two parts : that number, and the sum of some
further parts. -/
def orbSpell (ranks subparts : Json) : Json :=
  .object [("mDataValues", .array [damageRanks ranks]), ("mSpellCalculations", .object [("Total",
    .object [("mFormulaParts", .array [damagePart,
      .object [("__type", .string "SumOfSubPartsCalculationPart"), ("mSubparts", subparts)]])])])]

/-- The place of the only further part. -/
def orbPlace : SpellPlace where
  spell := .member [("mDataValues", .array [damageRanks .null])] []
  before := []
  name := "Total"
  formula := .member [] []
  partsBefore := [damagePart]
  part := .subparts (.member [("__type", .string "SumOfSubPartsCalculationPart")] []) [] .here []
  partsAfter := []
  after := []

/-- A part of a kind without a rule. -/
def unruledPart (parts : Json) : Json :=
  .object [("__type", .string "GameCalculation"), ("mFormulaParts", parts)]

/-- The ranks and the further parts may both be written out. -/
theorem refills_orbSpell : ReflTransGen (Refills HasRule .spellData) (orbSpell .null .null)
    (orbSpell (.array []) (.array [])) := by
  have hranks : RecordType.namedRanks.Holds 1 "mValues" (.list none) := ⟨_, rfl, by decide⟩
  have hvalues : RecordType.spellData.Holds 0 "mDataValues" (.list (some .namedRanks)) :=
    ⟨_, rfl, by decide⟩
  have hsubparts : RecordType.part.Holds 5 "mSubparts" (.list (some .part)) := ⟨_, rfl, by decide⟩
  have hparts : RecordType.formula.Holds 0 "mFormulaParts" (.list (some .part)) :=
    ⟨_, rfl, by decide⟩
  have hformulas : RecordType.spellData.Holds 1 "mSpellCalculations" (.map (some .formula)) :=
    ⟨_, rfl, by decide⟩
  have hfirst : Refills HasRule .spellData (orbSpell .null .null) (orbSpell (.array []) .null) :=
    .item (.member [] [_]) [] [] hvalues rfl (.list (.member [_] []) hranks)
  have hsecond : Refills HasRule .spellData (orbSpell (.array []) .null)
      (orbSpell (.array []) (.array [])) :=
    .value (.member [_] []) [] "Total" [] hformulas
      (.item (.member [] []) [_] [] hparts rfl (.list (.member [_] []) hsubparts))
  exact .tail (.single hfirst) hsecond

theorem decode?_refilled_plain :
    ReflTransGen (Refills HasRule .spellData) (orbSpell .null .null)
        (orbSpell (.array []) (.array [])) ∧
      spellData? (orbSpell .null .null) = spellData? (orbSpell (.array []) (.array [])) ∧
      ¬ HasRule (unruledPart .null) ∧
      ∃ h : SpellData.Hole,
        spellData? (orbSpell .null (.array [unruledPart .null]))
          = some (h.fill (.unsupported "GameCalculation")) ∧
        spellData? (orbSpell .null (.array [unruledPart (.array [])]))
          = some (h.fill (.sum [])) := by
  have hrule : ¬ HasRule (unruledPart .null) := by
    rintro ⟨kind, hk, hkind⟩
    obtain rfl : "GameCalculation" = kind := Option.some.inj hkind
    revert hk
    decide
  obtain ⟨hsame, hparts⟩ := decode?_refilled .spellData (orbSpell .null .null)
    (orbSpell (.array []) (.array []))
  obtain ⟨h?, hnull, hempty⟩ :=
    (hparts (.member [("__type", .string "GameCalculation")] []) hrule).2 orbPlace
  have hdecodes : (spellData? (orbSpell .null (.array [unruledPart .null]))).isSome = true := rfl
  cases h? with
  | some h => exact ⟨refills_orbSpell, hsame refills_orbSpell, hrule, h, hnull, hempty⟩
  | none =>
    have hnone : spellData? (orbSpell .null (.array [unruledPart .null])) = none := hnull
    rw [hnone] at hdecodes
    cases hdecodes

/-- A spell with one formula, whose one part is of a kind without a rule. -/
def nestedFormula (parts : Json) : Json :=
  .object [("mSpellCalculations", .object [("Total", .object [("mFormulaParts",
    .array [.object [("__type", .string "GameCalculation"), ("mFormulaParts", parts)]])])])]

/-- An empty list of parts is not always the same as `null`. -/
theorem exists_null_parts :
    ¬ ∀ (r : RecordType) (v w : Json), Refills (fun _ => True) r v w →
      r.decode? v = r.decode? w := by
  intro h
  have hpart : Refills (fun _ => True) .part
      (.object [("__type", .string "GameCalculation"), ("mFormulaParts", .null)])
      (.object [("__type", .string "GameCalculation"), ("mFormulaParts", .array [])]) :=
    .parts (.member [("__type", .string "GameCalculation")] []) trivial
  have hparts : RecordType.formula.Holds 0 "mFormulaParts" (.list (some .part)) :=
    ⟨_, rfl, by decide⟩
  have hformulas : RecordType.spellData.Holds 1 "mSpellCalculations" (.map (some .formula)) :=
    ⟨_, rfl, by decide⟩
  have hspell : Refills (fun _ => True) .spellData (nestedFormula .null)
      (nestedFormula (.array [])) :=
    .value (.member [] []) [] "Total" [] hformulas
      (.item (.member [] []) [] [] hparts rfl hpart)
  have hnull : spellData? (nestedFormula .null)
      = some ⟨[], [("Total", ⟨[.unsupported "GameCalculation"]⟩)]⟩ := rfl
  have hempty : spellData? (nestedFormula (.array []))
      = some ⟨[], [("Total", ⟨[.sum []]⟩)]⟩ := rfl
  have he : spellData? (nestedFormula .null) = spellData? (nestedFormula (.array [])) :=
    h .spellData _ _ hspell
  rw [hnull, hempty] at he
  cases he

end SpellText.Record
