import SpellText.Proofs.Fields

/-!
# Places of parts

A place for a part in the data of a spell is a record that is open somewhere in one of its
formulas, at any depth : in a field of a part or among the items of a list
(`Record.SpellPlace`). Every record with a part in it is such a place with the part put in.

What is put into a place does not show in what is decoded around it
(`Record.SpellPlace.exists_spellData?_fill`) : there is one piece of data with an open part
(`SpellData.Hole`), whatever is put in, and decoding fills it. A part may drop what is in a
field of its record, since its kind decides which fields count : only a product has factors,
only a sum has parts under the name that is kept for it, and where a kind has a rule, no part
has any under the name of a formula's. The record in such a field has to be well-formed all the
same, but what it stands for is dropped (`Formula.Part.Hole.closed`).
-/

namespace SpellText

open Formula (Part)

/-! ## Formulas with an open place -/

/-- A part of a formula in which at most one part is left open. -/
inductive Formula.Part.Hole
  | here
  | left (inner : Hole) (right : Part)
  | right (left : Part) (inner : Hole)
  | sum (before : List Part) (inner : Hole) (after : List Part)
  /-- Nothing is open: what stands in the place does not matter. -/
  | closed (p : Part)

/-- The part with a part in its open place. -/
def Formula.Part.Hole.fill : Hole → Part → Part
  | .here, p => p
  | .left inner q, p => .product (inner.fill p) q
  | .right q inner, p => .product q (inner.fill p)
  | .sum before inner after, p => .sum (before ++ inner.fill p :: after)
  | .closed q, _ => q

/-- Data of a spell in which at most one part of a formula is left open. -/
structure SpellData.Hole where
  values : List NamedRanks
  before : List (String × Formula)
  name : String
  partsBefore : List Part
  part : Part.Hole
  partsAfter : List Part
  after : List (String × Formula)

namespace SpellData.Hole

/-- The formula with a part in its open place. -/
def formula (h : Hole) (p : Part) : Formula := ⟨h.partsBefore ++ h.part.fill p :: h.partsAfter⟩

/-- The data with a part in its open place. -/
def fill (h : Hole) (p : Part) : SpellData :=
  ⟨h.values, h.before ++ (h.name, h.formula p) :: h.after⟩

end SpellData.Hole

namespace Record

/-! ## Places of parts in records -/

/-- A place for a part in the record of a part. -/
inductive PartPlace
  | here
  | left (o : Opening 3 "mPart1") (inner : PartPlace)
  | right (o : Opening 4 "mPart2") (inner : PartPlace)
  | subparts (o : Opening 5 "mSubparts") (before : List Json) (inner : PartPlace)
    (after : List Json)
  | parts (o : Opening 6 "mFormulaParts") (before : List Json) (inner : PartPlace)
    (after : List Json)

/-- The record with a value in the place. -/
def PartPlace.fill : PartPlace → Json → Json
  | .here, v => v
  | .left o inner, v => o.fill (inner.fill v)
  | .right o inner, v => o.fill (inner.fill v)
  | .subparts o before inner after, v => o.fill (.array (before ++ inner.fill v :: after))
  | .parts o before inner after, v => o.fill (.array (before ++ inner.fill v :: after))

/-- A place for a part in the record of a spell: in a part of one of its formulas. -/
structure SpellPlace where
  spell : Opening 1 "mSpellCalculations"
  before : List (String × Json)
  name : String
  formula : Opening 0 "mFormulaParts"
  partsBefore : List Json
  part : PartPlace
  partsAfter : List Json
  after : List (String × Json)

/-- The record with a value in the place. -/
def SpellPlace.fill (c : SpellPlace) (v : Json) : Json :=
  c.spell.fill (.object (c.before ++
    (c.name, c.formula.fill (.array (c.partsBefore ++ c.part.fill v :: c.partsAfter))) :: c.after))

/-! ## Lists with an open item -/

/-- A list decodes if its items do, also those around an open one. -/
theorem list?_append_cons {β : Type} (decode : Json → Option β) (before after : List Json)
    (v : Json) : list? decode (.array (before ++ v :: after))
      = (before.mapM decode).bind fun bs => (after.mapM decode).bind fun as =>
          (decode v).map fun b => bs ++ b :: as := by
  show (before ++ v :: after).mapM decode = _
  rw [List.mapM_append, List.mapM_cons]
  cases before.mapM decode with
  | none => rfl
  | some bs => cases decode v <;> cases after.mapM decode <;> rfl

/-! ## Parts with an open field -/

namespace PartFields

def withLeft (f : PartFields) (p : Part) : PartFields := { f with left := some p }

def withRight (f : PartFields) (p : Part) : PartFields := { f with right := some p }

def withSubparts (f : PartFields) (ps : List Part) : PartFields := { f with subparts := some ps }

def withParts (f : PartFields) (ps : List Part) : PartFields := { f with parts := some ps }

end PartFields

section

variable (kind name : Option (Option String)) (x : Option (Option Float))
  (left right : Option (Option Part)) (subparts parts : Option (Option (List Part)))

/-- The fields of a part from what became of each. -/
def gathered : Option PartFields := do
  return ⟨← kind, ← name, ← x, ← left, ← right, ← subparts, ← parts⟩

/-- Of the fields of a part the left factor may be put in last. -/
theorem gathered_left (p : Option Part) :
    gathered kind name x (p.map some) right subparts parts
      = (gathered kind name x (some none) right subparts parts).bind fun f =>
          p.map f.withLeft := by
  cases kind <;> cases name <;> cases x <;> cases right <;> cases subparts <;> cases parts <;>
    cases p <;> rfl

theorem gathered_right (p : Option Part) :
    gathered kind name x left (p.map some) subparts parts
      = (gathered kind name x left (some none) subparts parts).bind fun f =>
          p.map f.withRight := by
  cases kind <;> cases name <;> cases x <;> cases left <;> cases subparts <;> cases parts <;>
    cases p <;> rfl

theorem gathered_subparts (ps : Option (List Part)) :
    gathered kind name x left right (ps.map some) parts
      = (gathered kind name x left right (some none) parts).bind fun f =>
          ps.map f.withSubparts := by
  cases kind <;> cases name <;> cases x <;> cases left <;> cases right <;> cases parts <;>
    cases ps <;> rfl

theorem gathered_parts (ps : Option (List Part)) :
    gathered kind name x left right subparts (ps.map some)
      = (gathered kind name x left right subparts (some none)).bind fun f =>
          ps.map f.withParts := by
  cases kind <;> cases name <;> cases x <;> cases left <;> cases right <;> cases subparts <;>
    cases ps <;> rfl

variable {kind name x left right subparts parts} in
theorem gathered_eq_some {f : PartFields}
    (h : gathered kind name x left right subparts parts = some f) :
    kind = some f.kind ∧ name = some f.name ∧ x = some f.x ∧ left = some f.left ∧
      right = some f.right ∧ subparts = some f.subparts ∧ parts = some f.parts := by
  cases kind <;> cases name <;> cases x <;> cases left <;> cases right <;> cases subparts <;>
    cases parts <;> cases h
  exact ⟨rfl, rfl, rfl, rfl, rfl, rfl, rfl⟩

end

theorem optional?_of_ne_null {γ : Type} (decode : Json → Option γ) {v : Json} (h : v ≠ .null) :
    optional? decode (some v) = (decode v).map some := by
  cases v <;> first | rfl | exact absurd rfl h

/-- What is put into an open field of a part is decoded by itself and joins the other
fields. -/
theorem Opening.exists_part? {index : Nat} {name : String} (o : Opening index name) {γ : Type}
    {decode : Json → Option γ} (fs gs : List (List String)) (put : PartFields → γ → PartFields)
    (hf : partFields = fs ++ [name] :: gs) (hi : fs.length = index)
    (hn : ∀ names ∈ fs ++ gs, name ∉ names)
    (hput : ∀ ls rs, ls.length = fs.length → rs.length = gs.length → ∀ v, v ≠ .null →
      partFields? (ls ++ some v :: rs)
        = (partFields? (ls ++ none :: rs)).bind fun f => (decode v).map (put f)) :
    ∃ f? : Option PartFields, ∀ v, v ≠ .null →
      part? (o.fill v) = f?.bind fun f => (decode v).map fun d => (put f d).part := by
  obtain ⟨others, hlen, h⟩ := o.exists_fieldsOf? fs gs hi (List.mem_singleton_self name) hn
  refine ⟨others.bind fun lr => partFields? (lr.1 ++ none :: lr.2), fun v hv => ?_⟩
  rw [part?_eq, hf, h v]
  cases others with
  | none => rfl
  | some lr =>
    obtain ⟨hl, hr⟩ := hlen lr.1 lr.2 rfl
    rw [Option.map_some, Option.bind_some, Option.bind_some, hput lr.1 lr.2 hl hr v hv,
      Option.map_bind]
    simp only [Function.comp_def, Option.map_map]

/-- A part with an open left factor decodes with the factor, if the rest decodes. -/
theorem Opening.exists_left (o : Opening 3 "mPart1") : ∃ f? : Option PartFields, ∀ v, v ≠ .null →
    part? (o.fill v)
      = f?.bind fun f => (part? v).map fun p => (f.withLeft p).part := by
  refine o.exists_part? [["__type"], ["mDataValue"], ["mNumber"]]
    [["mPart2"], ["mSubparts"], ["mFormulaParts"]] PartFields.withLeft
    rfl rfl (by decide) fun ls rs hl hr v hv => ?_
  match ls, rs, hl, hr with
  | [kind, name, x], [right, subparts, parts], _, _ =>
    show gathered _ _ _ (optional? part? (some v)) _ _ _ = _
    rw [optional?_of_ne_null part? hv]
    exact gathered_left ..

theorem Opening.exists_right (o : Opening 4 "mPart2") : ∃ f? : Option PartFields,
    ∀ v, v ≠ .null → part? (o.fill v)
      = f?.bind fun f => (part? v).map fun p => (f.withRight p).part := by
  refine o.exists_part? [["__type"], ["mDataValue"], ["mNumber"], ["mPart1"]]
    [["mSubparts"], ["mFormulaParts"]] PartFields.withRight
    rfl rfl (by decide) fun ls rs hl hr v hv => ?_
  match ls, rs, hl, hr with
  | [kind, name, x, left], [subparts, parts], _, _ =>
    show gathered _ _ _ _ (optional? part? (some v)) _ _ = _
    rw [optional?_of_ne_null part? hv]
    exact gathered_right ..

/-- A part with open parts of a sum decodes with these, if the rest decodes. -/
theorem Opening.exists_subparts (o : Opening 5 "mSubparts") : ∃ f? : Option PartFields,
    ∀ v, v ≠ .null → part? (o.fill v)
      = f?.bind fun f => (list? part? v).map fun ps => (f.withSubparts ps).part := by
  refine o.exists_part? [["__type"], ["mDataValue"], ["mNumber"], ["mPart1"], ["mPart2"]]
    [["mFormulaParts"]] PartFields.withSubparts
    rfl rfl (by decide) fun ls rs hl hr v hv => ?_
  match ls, rs, hl, hr with
  | [kind, name, x, left, right], [parts], _, _ =>
    show gathered _ _ _ _ _ (optional? (list? part?) (some v)) _ = _
    rw [optional?_of_ne_null (list? part?) hv]
    exact gathered_subparts ..

/-- A part with an open list of parts decodes with the list, if the rest decodes. -/
theorem Opening.exists_parts (o : Opening 6 "mFormulaParts") : ∃ f? : Option PartFields,
    ∀ v, v ≠ .null → part? (o.fill v)
      = f?.bind fun f => (list? part? v).map fun ps => (f.withParts ps).part := by
  refine o.exists_part?
    [["__type"], ["mDataValue"], ["mNumber"], ["mPart1"], ["mPart2"], ["mSubparts"]]
    [] PartFields.withParts
    rfl rfl (by decide) fun ls rs hl hr v hv => ?_
  match ls, rs, hl, hr with
  | [kind, name, x, left, right, subparts], [], _, _ =>
    show gathered _ _ _ _ _ _ (optional? (list? part?) (some v)) = _
    rw [optional?_of_ne_null (list? part?) hv]
    exact gathered_parts ..

/-! ## Parts by their kind -/

/-- The kinds of parts that have a rule. -/
def ruledKinds : List String :=
  ["NamedDataValueCalculationPart", "StatByNamedDataValueCalculationPart",
    "NumberCalculationPart", "ProductOfSubPartsCalculationPart", "SumOfSubPartsCalculationPart"]

section

variable {kind name : Option String} {x : Option Float} {left right left' right' : Option Part}
  {subparts parts subparts' parts' : Option (List Part)}

/-- A part of a kind without a rule is the sum of its parts, or unsupported without any. -/
theorem partOfKind_of_unruled (h : ∀ k ∈ ruledKinds, kind ≠ some k) :
    partOfKind kind name x left right subparts parts
      = (parts.map Part.sum).getD (.unsupported (kind.getD "<untyped>")) := by
  unfold partOfKind
  split
  · exact absurd rfl (h _ (by decide))
  · exact absurd rfl (h _ (by decide))
  · exact absurd rfl (h _ (by decide))
  · exact absurd rfl (h _ (by decide))
  · exact absurd rfl (h _ (by decide))
  · cases parts <;> rfl

theorem isRuled_or (kind : Option String) :
    (∃ k ∈ ruledKinds, kind = some k) ∨ ∀ k ∈ ruledKinds, kind ≠ some k := by
  by_cases h : ∃ k ∈ ruledKinds, kind = some k
  · exact .inl h
  · exact .inr fun k hk he => h ⟨k, hk, he⟩

/-- Only a product has factors. -/
theorem partOfKind_congr_factors (h : kind ≠ some "ProductOfSubPartsCalculationPart") :
    partOfKind kind name x left right subparts parts
      = partOfKind kind name x left' right' subparts parts := by
  rcases isRuled_or kind with ⟨k, hk, rfl⟩ | hr
  · simp only [ruledKinds, List.mem_cons, List.not_mem_nil, or_false] at hk
    rcases hk with rfl | rfl | rfl | rfl | rfl
    · rfl
    · rfl
    · rfl
    · exact absurd rfl h
    · rfl
  · rw [partOfKind_of_unruled hr, partOfKind_of_unruled hr]

/-- Only a sum has parts under the name that is kept for it. -/
theorem partOfKind_congr_subparts (h : kind ≠ some "SumOfSubPartsCalculationPart") :
    partOfKind kind name x left right subparts parts
      = partOfKind kind name x left right subparts' parts := by
  rcases isRuled_or kind with ⟨k, hk, rfl⟩ | hr
  · simp only [ruledKinds, List.mem_cons, List.not_mem_nil, or_false] at hk
    rcases hk with rfl | rfl | rfl | rfl | rfl
    · rfl
    · rfl
    · rfl
    · rfl
    · exact absurd rfl h
  · rw [partOfKind_of_unruled hr, partOfKind_of_unruled hr]

/-- A part of a kind with a rule has no parts under the name of a formula's. -/
theorem partOfKind_congr_parts {k : String} (h : k ∈ ruledKinds) :
    partOfKind (some k) name x left right subparts parts
      = partOfKind (some k) name x left right subparts parts' := by
  simp only [ruledKinds, List.mem_cons, List.not_mem_nil, or_false] at h
  rcases h with rfl | rfl | rfl | rfl | rfl <;> rfl

end

/-! ## What becomes of a place -/

namespace PartFields

variable (f : PartFields)

/-- A part keeps the place of its left factor or drops it. -/
theorem exists_hole_left (h : Part.Hole) :
    ∃ h' : Part.Hole, ∀ p, (f.withLeft (h.fill p)).part = h'.fill p := by
  by_cases hk : f.kind = some "ProductOfSubPartsCalculationPart"
  · exact ⟨.left h (f.right.getD (.sum [])), fun p => by simp only [part, withLeft, hk]; rfl⟩
  · exact ⟨.closed (part { f with left := none }), fun p => partOfKind_congr_factors hk⟩

theorem exists_hole_right (h : Part.Hole) :
    ∃ h' : Part.Hole, ∀ p, (f.withRight (h.fill p)).part = h'.fill p := by
  by_cases hk : f.kind = some "ProductOfSubPartsCalculationPart"
  · exact ⟨.right (f.left.getD (.sum [])) h, fun p => by simp only [part, withRight, hk]; rfl⟩
  · exact ⟨.closed (part { f with right := none }), fun p => partOfKind_congr_factors hk⟩

/-- A part keeps a place among the parts of a sum or drops it. -/
theorem exists_hole_subparts (before after : List Part) (h : Part.Hole) :
    ∃ h' : Part.Hole, ∀ p,
      (f.withSubparts (before ++ h.fill p :: after)).part = h'.fill p := by
  by_cases hk : f.kind = some "SumOfSubPartsCalculationPart"
  · exact ⟨.sum before h after, fun p => by simp only [part, withSubparts, hk]; rfl⟩
  · exact ⟨.closed (part { f with subparts := none }), fun p => partOfKind_congr_subparts hk⟩

theorem exists_hole_parts (before after : List Part) (h : Part.Hole) :
    ∃ h' : Part.Hole, ∀ p,
      (f.withParts (before ++ h.fill p :: after)).part = h'.fill p := by
  rcases isRuled_or f.kind with ⟨k, hk, he⟩ | hr
  · refine ⟨.closed (part { f with parts := none }), fun p => ?_⟩
    simp only [part, withParts, he]
    exact partOfKind_congr_parts hk
  · exact ⟨.sum before h after, fun p => partOfKind_of_unruled hr⟩

end PartFields

theorem PartPlace.fill_ne_null (c : PartPlace) {v : Json} (h : v ≠ .null) : c.fill v ≠ .null := by
  cases c with
  | here => exact h
  | left o _ => exact o.fill_ne_null _
  | right o _ => exact o.fill_ne_null _
  | subparts o _ _ _ => exact o.fill_ne_null _
  | parts o _ _ _ => exact o.fill_ne_null _

/-- A place in a place is a place. -/
theorem exists_hole_of_bind {γ : Type} {g : γ → Part → Part}
    (hg : ∀ (f : γ) (h : Part.Hole), ∃ h' : Part.Hole, ∀ p, g f (h.fill p) = h'.fill p)
    (f? : Option γ) (h? : Option Part.Hole) : ∃ h'? : Option Part.Hole, ∀ p? : Option Part,
      (f?.bind fun f => (h?.bind fun h => p?.map h.fill).map (g f))
        = h'?.bind fun h => p?.map h.fill := by
  cases f? with
  | none => exact ⟨none, fun _ => rfl⟩
  | some f =>
    cases h? with
    | none => exact ⟨none, fun _ => rfl⟩
    | some h =>
      obtain ⟨h', hh⟩ := hg f h
      refine ⟨some h', fun p? => ?_⟩
      cases p? with
      | none => rfl
      | some p => exact congrArg some (hh p)

/-- The same for a place among the items of a list. -/
theorem exists_hole_of_bind_list? {γ : Type} {g : γ → List Part → Part}
    (hg : ∀ (f : γ) (bs as : List Part) (h : Part.Hole),
      ∃ h' : Part.Hole, ∀ p, g f (bs ++ h.fill p :: as) = h'.fill p)
    (f? : Option γ) (h? : Option Part.Hole) (before after : List Json) :
    ∃ h'? : Option Part.Hole, ∀ (v : Json) (p? : Option Part),
      part? v = (h?.bind fun h => p?.map h.fill) →
        (f?.bind fun f => (list? part? (.array (before ++ v :: after))).map (g f))
          = h'?.bind fun h => p?.map h.fill := by
  obtain ⟨h'?, hh⟩ := exists_hole_of_bind
    (g := fun (f : γ × List Part × List Part) p => g f.1 (f.2.1 ++ p :: f.2.2))
    (fun f => hg f.1 f.2.1 f.2.2)
    (f?.bind fun f => (before.mapM part?).bind fun bs => (after.mapM part?).map fun as =>
      (f, bs, as)) h?
  refine ⟨h'?, fun v p? hv => ?_⟩
  rw [← hh p?, ← hv, list?_append_cons]
  cases f? with
  | none => rfl
  | some f =>
    cases before.mapM part? with
    | none => rfl
    | some bs => cases after.mapM part? <;> cases part? v <;> rfl

/-- What is put into a place is a part of the record, unless the record stands for no part
whatever is there. -/
theorem PartPlace.exists_part?_fill (c : PartPlace) : ∃ h? : Option Part.Hole,
    ∀ v, v ≠ .null → part? (c.fill v) = h?.bind fun h => (part? v).map h.fill := by
  induction c with
  | here =>
    refine ⟨some .here, fun v _ => ?_⟩
    cases h : part? v with
    | none => exact h
    | some p => exact h
  | left o inner ih =>
    obtain ⟨h?, hin⟩ := ih
    obtain ⟨f?, ho⟩ := o.exists_left
    obtain ⟨h'?, hh⟩ := exists_hole_of_bind (g := fun f p => (f.withLeft p).part)
      PartFields.exists_hole_left f? h?
    exact ⟨h'?, fun v hv => by rw [fill, ho _ (inner.fill_ne_null hv), hin v hv, hh]⟩
  | right o inner ih =>
    obtain ⟨h?, hin⟩ := ih
    obtain ⟨f?, ho⟩ := o.exists_right
    obtain ⟨h'?, hh⟩ := exists_hole_of_bind (g := fun f p => (f.withRight p).part)
      PartFields.exists_hole_right f? h?
    exact ⟨h'?, fun v hv => by rw [fill, ho _ (inner.fill_ne_null hv), hin v hv, hh]⟩
  | subparts o before inner after ih =>
    obtain ⟨h?, hin⟩ := ih
    obtain ⟨f?, ho⟩ := o.exists_subparts
    obtain ⟨h'?, hh⟩ := exists_hole_of_bind_list? (g := fun f ps => (f.withSubparts ps).part)
      PartFields.exists_hole_subparts f? h? before after
    exact ⟨h'?, fun v hv => by rw [fill, ho (.array _) nofun, hh _ _ (hin v hv)]⟩
  | parts o before inner after ih =>
    obtain ⟨h?, hin⟩ := ih
    obtain ⟨f?, ho⟩ := o.exists_parts
    obtain ⟨h'?, hh⟩ := exists_hole_of_bind_list? (g := fun f ps => (f.withParts ps).part)
      PartFields.exists_hole_parts f? h? before after
    exact ⟨h'?, fun v hv => by rw [fill, ho (.array _) nofun, hh _ _ (hin v hv)]⟩

/-! ## Spells with an open part -/

theorem spellData?_eq (v : Json) : spellData? v
    = (fieldsOf? [["DataValues", "mDataValues"], ["mSpellCalculations"]] v).bind fun
      | [values, formulas] => do
        return ⟨← defaulted? [] (list? namedRanks?) values, ← defaulted? [] formulas? formulas⟩
      | _ => none :=
  decode_eq _ _ v

theorem formula?_eq (v : Json) : formula? v = (fieldsOf? [["mFormulaParts"]] v).bind fun
    | [parts] => do return ⟨← defaulted? [] (list? part?) parts⟩
    | _ => none :=
  decode_eq _ _ v

theorem defaulted?_of_ne_null {γ : Type} (default : γ) (decode : Json → Option γ) {v : Json}
    (h : v ≠ .null) : defaulted? default decode (some v) = decode v := by
  rw [defaulted?, optional?_of_ne_null decode h, Option.map_map]
  cases decode v <;> rfl

/-- The data of a spell with open formulas decode with these, if the rest decodes. -/
theorem Opening.exists_spellData? (o : Opening 1 "mSpellCalculations") :
    ∃ vs? : Option (List NamedRanks), ∀ v, v ≠ .null →
      spellData? (o.fill v) = vs?.bind fun vs => (formulas? v).map fun fs => ⟨vs, fs⟩ := by
  obtain ⟨others, hlen, h⟩ := o.exists_fieldsOf? [["DataValues", "mDataValues"]] [] rfl
    (List.mem_singleton_self _) (by decide)
  simp only [List.cons_append, List.nil_append] at h
  cases others with
  | none => exact ⟨none, fun v _ => by rw [spellData?_eq, h]; rfl⟩
  | some lr =>
    obtain ⟨ls, rs⟩ := lr
    obtain ⟨hl, hr⟩ := hlen ls rs rfl
    match ls, rs, hl, hr with
    | [values], [], _, _ =>
      refine ⟨defaulted? [] (list? namedRanks?) values, fun v hv => ?_⟩
      rw [spellData?_eq, h, ← defaulted?_of_ne_null [] formulas? hv]
      show (defaulted? [] (list? namedRanks?) values).bind (fun vs =>
        (defaulted? [] formulas? (some v)).bind fun fs => some (SpellData.mk vs fs)) = _
      cases defaulted? [] (list? namedRanks?) values <;>
        cases defaulted? [] formulas? (some v) <;> rfl

/-- A formula with an open list of parts decodes with the list. -/
theorem Opening.exists_formula? (o : Opening 0 "mFormulaParts") :
    ∃ u? : Option Unit, ∀ v, v ≠ .null →
      formula? (o.fill v) = u?.bind fun _ => (list? part? v).map Formula.mk := by
  obtain ⟨others, hlen, h⟩ := o.exists_fieldsOf? [] [] rfl (List.mem_singleton_self _) (by decide)
  simp only [List.nil_append] at h
  cases others with
  | none => exact ⟨none, fun v _ => by rw [formula?_eq, h]; rfl⟩
  | some lr =>
    obtain ⟨ls, rs⟩ := lr
    obtain ⟨hl, hr⟩ := hlen ls rs rfl
    match ls, rs, hl, hr with
    | [], [], _, _ =>
      refine ⟨some (), fun v hv => ?_⟩
      rw [formula?_eq, h, ← defaulted?_of_ne_null [] (list? part?) hv]
      show (defaulted? [] (list? part?) (some v)).bind (fun ps => some (Formula.mk ps)) = _
      cases defaulted? [] (list? part?) (some v) <;> rfl

/-- Formulas decode if each does, also those around an open one. -/
theorem formulas?_append_cons (before after : List (String × Json)) (name : String) (v : Json) :
    formulas? (.object (before ++ (name, v) :: after))
      = (formulas? (.object before)).bind fun bs => (formulas? (.object after)).bind fun as =>
          (formula? v).map fun f => bs ++ (name, f) :: as := by
  show (before ++ (name, v) :: after).mapM (fun m => (formula? m.2).map (m.1, ·)) = _
  rw [List.mapM_append, List.mapM_cons]
  show _ = (before.mapM fun m => (formula? m.2).map (m.1, ·)).bind fun bs =>
    (after.mapM fun m => (formula? m.2).map (m.1, ·)).bind fun as => _
  cases before.mapM fun m => (formula? m.2).map (m.1, ·) with
  | none => rfl
  | some bs => cases formula? v <;> cases after.mapM fun m => (formula? m.2).map (m.1, ·) <;> rfl

/-- What is put into a place is a part in the data of the spell, unless there are none
whatever is there. -/
theorem SpellPlace.exists_spellData?_fill (c : SpellPlace) : ∃ h? : Option SpellData.Hole,
    ∀ v, v ≠ .null → spellData? (c.fill v) = h?.bind fun h => (part? v).map h.fill := by
  obtain ⟨vs?, hs⟩ := c.spell.exists_spellData?
  obtain ⟨u?, hf⟩ := c.formula.exists_formula?
  obtain ⟨p?, hp⟩ := c.part.exists_part?_fill
  refine ⟨do
    let vs ← vs?
    let before ← formulas? (.object c.before)
    let after ← formulas? (.object c.after)
    let _ ← u?
    let partsBefore ← c.partsBefore.mapM part?
    let partsAfter ← c.partsAfter.mapM part?
    return ⟨vs, before, c.name, partsBefore, ← p?, partsAfter, after⟩, fun v hv => ?_⟩
  rw [fill, hs (.object _) nofun, formulas?_append_cons, hf (.array _) nofun, list?_append_cons,
    hp v hv]
  cases vs? with
  | none => rfl
  | some vs =>
  cases formulas? (.object c.before) with
  | none => rfl
  | some before =>
  cases formulas? (.object c.after) with
  | none => rfl
  | some after =>
  cases u? with
  | none => rfl
  | some _ =>
  cases c.partsBefore.mapM part? with
  | none => rfl
  | some partsBefore =>
  cases c.partsAfter.mapM part? with
  | none => rfl
  | some partsAfter => cases p? <;> cases part? v <;> rfl

end Record

end SpellText
