import SpellText.Proofs.Fates
import SpellText.Proofs.Leaves

/-!
# Records of texts

Filling in a record changes its strings only, each on its own. The path of a string
tells the ability it belongs to, or that it is left alone (`Champion.contextAt?`), and
this decides its new text and what is counted for it (`Champion.fillAt`).

`Json.filled` is the value that comes from new texts and tallies given by path. The
walks over trees, spells, fields and records are all of this form, and
`Champion.fillRecord_leafwise` says for records what that means for shape, leaves and
tally.
-/

namespace SpellText

namespace Tally

theorem sum_append (ts us : List Tally) : sum (ts ++ us) = sum ts ++ sum us := by
  induction ts with
  | nil => rw [List.nil_append, sum_nil, empty_append]
  | cons t ts ih => rw [List.cons_append, sum_cons, sum_cons, ih, append_assoc]

end Tally

/-! ## Texts by path -/

namespace Json

/-- The new text of a string and what is counted for it, by path. -/
abbrev Filling := Path → String → String × Tally

namespace Filling

/-- The filling of a part of a value. -/
def within (g : Filling) (step : Step) : Filling := fun path => g (step :: path)

/-- The new text. -/
def text (g : Filling) (path : Path) (s : String) : String := (g path s).1

/-- What is counted for a leaf. -/
def tally (g : Filling) (l : Leaf) : Tally := (g l.path l.text).2

theorem sum_tally_behind (g : Filling) (step : Step) (ls : List Leaf) :
    Tally.sum ((ls.map (.behind step)).map g.tally) = Tally.sum (ls.map (g.within step).tally) := by
  rw [List.map_map]
  rfl

end Filling

/-- The value with its new texts, and the tally continued with what is counted for its
leaves in document order. -/
def filled (g : Filling) (v : Json) (t : Tally) : Json × Tally :=
  (v.mapTexts g.text, t ++ .sum (v.leaves.map g.tally))

/-- The same for the items of an array from an index on. -/
def filledItems (g : Filling) (i : Nat) (items : List Json) (t : Tally) : List Json × Tally :=
  (mapTextsOfItems g.text i items, t ++ .sum ((leavesOfItems i items).map g.tally))

/-- The same for the members of an object. -/
def filledMembers (g : Filling) (members : List (String × Json)) (t : Tally) :
    List (String × Json) × Tally :=
  (mapTextsOfMembers g.text members, t ++ .sum ((leavesOfMembers members).map g.tally))

section

variable (g : Filling) (t : Tally)

theorem filledItems_nil (i : Nat) : filledItems g i [] t = ([], t) :=
  congrArg (([] : List Json), ·) t.append_empty

theorem filledMembers_nil : filledMembers g [] t = ([], t) :=
  congrArg (([] : List (String × Json)), ·) t.append_empty

/-- Items are filled in one after the other, each in its place. -/
theorem filledItems_cons (i : Nat) (v : Json) (rest : List Json) :
    filledItems g i (v :: rest) t
      = ((v.filled (g.within (.item i)) t).1
          :: (filledItems g (i + 1) rest (v.filled (g.within (.item i)) t).2).1,
        (filledItems g (i + 1) rest (v.filled (g.within (.item i)) t).2).2) := by
  simp only [filledItems, filled, leavesOfItems, List.map_append, Tally.sum_append,
    g.sum_tally_behind, Tally.append_assoc]
  rfl

/-- Members are filled in one after the other, each under its name. -/
theorem filledMembers_cons (key : String) (v : Json) (rest : List (String × Json)) :
    filledMembers g ((key, v) :: rest) t
      = ((key, (v.filled (g.within (.member key)) t).1)
          :: (filledMembers g rest (v.filled (g.within (.member key)) t).2).1,
        (filledMembers g rest (v.filled (g.within (.member key)) t).2).2) := by
  simp only [filledMembers, filled, leavesOfMembers, List.map_append, Tally.sum_append,
    g.sum_tally_behind, Tally.append_assoc]
  rfl

end

/-- The filling that leaves all strings and counts nothing. -/
def Filling.idle : Filling := fun _ s => (s, .empty)

theorem Filling.sum_tally_idle (ls : List Leaf) : Tally.sum (ls.map idle.tally) = .empty := by
  induction ls with
  | nil => rfl
  | cons l ls ih => rw [List.map_cons, Tally.sum_cons, ih, Tally.append_empty]; rfl

/-- A value stays as it is where every text stays. -/
theorem filled_idle (v : Json) (t : Tally) : v.filled .idle t = (v, t) := by
  rw [filled, Filling.sum_tally_idle, Tally.append_empty]
  exact congrArg (·, t) v.mapTexts_same

theorem filledItems_of_idle {g : Filling} (h : ∀ i, g.within (.item i) = .idle) :
    ∀ (i : Nat) (items : List Json) (t : Tally), filledItems g i items t = (items, t)
  | i, [], t => filledItems_nil g t i
  | i, item :: rest, t => by
    rw [filledItems_cons, h, filled_idle, filledItems_of_idle h (i + 1) rest]

theorem filledMembers_of_idle {g : Filling} (h : ∀ key, g.within (.member key) = .idle) :
    ∀ (members : List (String × Json)) (t : Tally), filledMembers g members t = (members, t)
  | [], t => filledMembers_nil g t
  | (key, v) :: rest, t => by
    rw [filledMembers_cons, h, filled_idle, filledMembers_of_idle h rest]

/-- A value stays where its filling is idle on it and on the kind of parts that it has. -/
theorem filled_of_idle {g : Filling} {v : Json} (hg : g [] = Filling.idle [])
    (hi : v.array? = none ∨ ∀ i, g.within (.item i) = .idle)
    (hm : v.object? = none ∨ ∀ key, g.within (.member key) = .idle) (t : Tally) :
    v.filled g t = (v, t) := by
  cases v with
  | string s =>
    simp only [filled, mapTexts, leaves, List.map, Tally.sum_cons, Tally.sum_nil, Filling.text,
      Filling.tally, hg]
    exact congrArg (Json.string s, ·) t.append_empty
  | array items =>
    have h := filledItems_of_idle (hi.resolve_left nofun) 0 items t
    exact congrArg (fun r : _ × Tally => (array r.1, r.2)) h
  | object members =>
    have h := filledMembers_of_idle (hm.resolve_left nofun) members t
    exact congrArg (fun r : _ × Tally => (object r.1, r.2)) h
  | null => exact congrArg (null, ·) t.append_empty
  | bool b => exact congrArg (bool b, ·) t.append_empty
  | number n => exact congrArg (number n, ·) t.append_empty

theorem filledMembers_append (g : Filling) :
    ∀ (front back : List (String × Json)) (t : Tally), filledMembers g (front ++ back) t
      = ((filledMembers g front t).1 ++ (filledMembers g back (filledMembers g front t).2).1,
        (filledMembers g back (filledMembers g front t).2).2)
  | [], back, t => by
    rw [filledMembers_nil]
    rfl
  | (key, v) :: front, back, t => by
    rw [List.cons_append, filledMembers_cons, filledMembers_cons, filledMembers_append]
    rfl

theorem length_filledMembers (g : Filling) : ∀ (members : List (String × Json)) (t : Tally),
    (filledMembers g members t).1.length = members.length
  | [], _ => rfl
  | (_, _) :: rest, t => congrArg (· + 1) (length_filledMembers g rest t)

end Json

/-! ## Trees -/

namespace Context

/-- Every string is filled in in the same context. -/
def filling (x : Context) : Json.Filling := fun _ s => x.fillText s .empty

theorem filling_within (x : Context) (step : Json.Step) : x.filling.within step = x.filling := rfl

/-- A text is filled in and counted alike whatever was counted before. -/
theorem fillText_eq_filling (x : Context) (s : String) (t : Tally) :
    x.fillText s t = ((x.fillText s .empty).1, t ++ (x.fillText s .empty).2) := by
  have hc := Cutting.isOf_ofPieces s.toList
  rw [x.fillText_eq hc t, x.fillText_eq hc .empty, Tally.empty_append]

mutual

/-- A tree is filled in string by string, each in the same context. -/
theorem fill_eq_filled (x : Context) : ∀ (v : Json) (t : Tally), x.fill v t = v.filled x.filling t
  | .string s, t => by
    rw [fill, x.fillText_eq_filling]
    exact congrArg (Json.string (x.fillText s .empty).1, t ++ ·) (Tally.append_empty _).symm
  | .array items, t => by
    rw [fill, x.fillItems_eq_filledItems 0 items t]
    rfl
  | .object members, t => by
    rw [fill, x.fillMembers_eq_filledMembers members t]
    rfl
  | .null, t => congrArg (Json.null, ·) t.append_empty.symm
  | .bool b, t => congrArg (Json.bool b, ·) t.append_empty.symm
  | .number n, t => congrArg (Json.number n, ·) t.append_empty.symm

theorem fillItems_eq_filledItems (x : Context) : ∀ (i : Nat) (items : List Json) (t : Tally),
    x.fillItems items t = Json.filledItems x.filling i items t
  | i, [], t => (Json.filledItems_nil x.filling t i).symm
  | i, item :: rest, t => by
    rw [Json.filledItems_cons, filling_within, ← x.fill_eq_filled item,
      ← x.fillItems_eq_filledItems (i + 1) rest]
    rfl

theorem fillMembers_eq_filledMembers (x : Context) :
    ∀ (members : List (String × Json)) (t : Tally),
      x.fillMembers members t = Json.filledMembers x.filling members t
  | [], t => (Json.filledMembers_nil x.filling t).symm
  | (key, v) :: rest, t => by
    rw [Json.filledMembers_cons, filling_within, ← x.fill_eq_filled v,
      ← x.fillMembers_eq_filledMembers rest]
    rfl

end

end Context

/-! ## Records -/

namespace Champion

variable (c : Champion) (locale : String)

/-- The context of a string in a field of a record, by its path from there on. A string
in or below an item of the spells belongs to the ability of that slot, one in or below
the passive text to the passive ability, and one in or below another field to no
ability. All others are left alone. -/
def contextIn? (field : String) (path : Json.Path) : Option Context :=
  if field = spellsField then
    match path with
    | .item slot :: _ => some ⟨c, c.abilityOfSlot? slot, locale⟩
    | _ => none
  else if field = passiveField then
    (c.ability? passiveKey).map fun passive => ⟨c, some passive, locale⟩
  else some ⟨c, none, locale⟩

/-- The context of a string in a record, by its path. -/
def contextAt? : Json.Path → Option Context
  | .member field :: path => c.contextIn? locale field path
  | _ => none

/-- The new text of a string in a record and what is counted for it, by its path. -/
def fillAt : Json.Filling := fun path s =>
  match c.contextAt? locale path with
  | some x => x.fillText s .empty
  | none => (s, .empty)

/-- The filling of a field. -/
abbrev fillIn (field : String) : Json.Filling := (c.fillAt locale).within (.member field)

/-- A string without a context stays as it is. -/
theorem fillIn_eq_idle {field : String} {path : Json.Path}
    (h : c.contextIn? locale field path = none) (s : String) :
    c.fillIn locale field path s = (s, .empty) := by
  show (match c.contextIn? locale field path with
    | some x => x.fillText s .empty
    | none => (s, .empty)) = _
  rw [h]

/-- A string with a context is filled in there. -/
theorem fillIn_eq_filling {field : String} {path : Json.Path} {x : Context}
    (h : c.contextIn? locale field path = some x) (s : String) :
    c.fillIn locale field path s = x.filling path s := by
  show (match c.contextIn? locale field path with
    | some x => x.fillText s .empty
    | none => (s, .empty)) = _
  rw [h]
  rfl

/-- What is under the passive field belongs to the passive ability, if there is one. -/
theorem contextIn?_passive (path : Json.Path) : c.contextIn? locale passiveField path
    = (c.ability? passiveKey).map fun passive => ⟨c, some passive, locale⟩ := by
  unfold contextIn?
  rw [if_neg (by decide), if_pos rfl]

/-- What is under any other field belongs to no ability. -/
theorem contextIn?_of_ne {field : String} (hs : field ≠ spellsField) (hp : field ≠ passiveField)
    (path : Json.Path) : c.contextIn? locale field path = some ⟨c, none, locale⟩ := by
  unfold contextIn?
  rw [if_neg hs, if_neg hp]

/-- What is under a slot belongs to the ability of the slot. -/
theorem fillIn_spell (slot : Nat) :
    (c.fillIn locale spellsField).within (.item slot)
      = Context.filling ⟨c, c.abilityOfSlot? slot, locale⟩ :=
  rfl

/-- The texts of the slots are filled in string by string. -/
theorem fillSpells_eq_filledItems : ∀ (slot : Nat) (texts : List Json) (t : Tally),
    c.fillSpells locale slot texts t
      = Json.filledItems (c.fillIn locale spellsField) slot texts t
  | slot, [], t => (Json.filledItems_nil _ t slot).symm
  | slot, text :: rest, t => by
    rw [Json.filledItems_cons, fillIn_spell, ← Context.fill_eq_filled,
      ← fillSpells_eq_filledItems (slot + 1) rest]
    rfl

/-- A field that is left alone : spells that are no list, and the passive text where the
champion has no passive ability. -/
def IsLeftAlone (field : String) (v : Json) : Prop :=
  field = spellsField ∧ v.array? = none ∨ field = passiveField ∧ c.ability? passiveKey = none

variable {c} in
/-- A field that is left alone stays and counts nothing. -/
theorem IsLeftAlone.filled {field : String} {v : Json} (h : c.IsLeftAlone field v) (t : Tally) :
    v.filled (c.fillIn locale field) t = (v, t) := by
  rcases h with ⟨rfl, hv⟩ | ⟨rfl, ha⟩
  · exact Json.filled_of_idle (g := c.fillIn locale spellsField) rfl (.inl hv) (.inr fun _ => rfl) t
  · have hg : c.fillIn locale passiveField = .idle := by
      funext path s
      exact c.fillIn_eq_idle locale (by rw [contextIn?_passive, ha]; rfl) s
    rw [hg, Json.filled_idle]

/-- A field is filled in string by string. -/
theorem fillField_eq_filled (field : String) (v : Json) (t : Tally) :
    c.fillField locale field v t = v.filled (c.fillIn locale field) t := by
  by_cases hs : field = spellsField
  · subst hs
    cases hv : v.array? with
    | some texts =>
      obtain rfl : v = .array texts := by cases v <;> cases hv; rfl
      rw [c.fillField_spells, c.fillSpells_eq_filledItems]
      rfl
    | none =>
      have hne : ∀ texts, v ≠ .array texts := by
        rintro texts rfl
        cases hv
      rw [c.fillField_spells_of_not_array locale hne, IsLeftAlone.filled locale (.inl ⟨rfl, hv⟩)]
  · by_cases hp : field = passiveField
    · subst hp
      cases ha : c.ability? passiveKey with
      | none => rw [fillField_passive_none ha, IsLeftAlone.filled locale (.inr ⟨rfl, ha⟩)]
      | some passive =>
        have hg : c.fillIn locale passiveField = Context.filling ⟨c, some passive, locale⟩ := by
          funext path s
          exact c.fillIn_eq_filling locale (by rw [contextIn?_passive, ha]; rfl) s
        rw [fillField_passive ha, hg, Context.fill_eq_filled]
    · have hg : c.fillIn locale field = Context.filling ⟨c, none, locale⟩ := by
        funext path s
        exact c.fillIn_eq_filling locale (c.contextIn?_of_ne locale hs hp path) s
      rw [c.fillField_of_ne locale hs hp, hg, Context.fill_eq_filled]

/-- The fields are filled in string by string, one after the other. -/
theorem fillFields_eq_filledMembers : ∀ (members : List (String × Json)) (t : Tally),
    c.fillFields locale members t = Json.filledMembers (c.fillAt locale) members t
  | [], t => (Json.filledMembers_nil _ t).symm
  | (field, v) :: rest, t => by
    rw [Json.filledMembers_cons, ← fillField_eq_filled, ← fillFields_eq_filledMembers rest]
    rfl

/-- A record that is no object stays as it is. -/
theorem filled_of_not_object {v : Json} (h : v.object? = none) (t : Tally) :
    v.filled (c.fillAt locale) t = (v, t) :=
  Json.filled_of_idle (g := c.fillAt locale) rfl (.inr fun _ => rfl) (.inl h) t

/-- A record is filled in string by string, each by its path. -/
theorem fillRecord_eq_filled (record : Json) (t : Tally) :
    c.fillRecord locale record t = record.filled (c.fillAt locale) t := by
  cases record with
  | object members =>
    rw [fillRecord, fillFields_eq_filledMembers]
    rfl
  | _ => exact (c.filled_of_not_object locale rfl t).symm

/-- A field that is left alone makes no difference to the others. -/
theorem fillRecord_of_isLeftAlone {field : String} {v : Json} (h : c.IsLeftAlone field v)
    (front back : List (String × Json)) (t : Tally) :
    ∃ front' back' u, front'.length = front.length ∧
      c.fillRecord locale (.object (front ++ back)) t = (.object (front' ++ back'), u) ∧
      c.fillRecord locale (.object (front ++ (field, v) :: back)) t
        = (.object (front' ++ (field, v) :: back'), u) := by
  have hobj : ∀ members, c.fillRecord locale (.object members) t
      = (.object (Json.filledMembers (c.fillAt locale) members t).1,
        (Json.filledMembers (c.fillAt locale) members t).2) := fun members => by
    rw [fillRecord, fillFields_eq_filledMembers]
  let r := Json.filledMembers (c.fillAt locale) front t
  let r' := Json.filledMembers (c.fillAt locale) back r.2
  refine ⟨r.1, r'.1, r'.2, Json.length_filledMembers (c.fillAt locale) front t, ?_, ?_⟩
  · rw [hobj, Json.filledMembers_append]
  · rw [hobj, Json.filledMembers_append, Json.filledMembers_cons, h.filled]

/-- In a filled record everything but the strings is as it was, every string has become
what its own context makes of it, and the tallies of the strings are added in document
order. What is no object and what is left alone in an object stays and adds nothing. -/
theorem fillRecord_leafwise (record : Json) (t : Tally) :
    (∀ v, v = (c.fillRecord locale record t).1 ↔
        v.shape = record.shape ∧ v.leaves = record.leaves.map (.mapText (c.fillAt locale).text)) ∧
      (c.fillRecord locale record t).2
        = t ++ .sum (record.leaves.map (c.fillAt locale).tally) ∧
      (record.isObject = false → c.fillRecord locale record t = (record, t)) ∧
      ∀ front field v back, record = .object (front ++ (field, v) :: back) →
        c.IsLeftAlone field v → ∃ front' back' u, front'.length = front.length ∧
          c.fillRecord locale (.object (front ++ back)) t = (.object (front' ++ back'), u) ∧
          c.fillRecord locale record t = (.object (front' ++ (field, v) :: back'), u) := by
  refine ⟨fun v => ?_, ?_, fun h => ?_, ?_⟩
  · rw [fillRecord_eq_filled, Json.filled]
    constructor
    · rintro rfl
      exact ⟨Json.shape_mapTexts _ _, Json.leaves_mapTexts _ _⟩
    · rintro ⟨hs, hl⟩
      refine Json.eq_of_shape_of_leaves (hs.trans (Json.shape_mapTexts _ _).symm) ?_
      rw [hl, Json.leaves_mapTexts]
  · rw [fillRecord_eq_filled, Json.filled]
  · cases record <;> first | rfl | cases h
  · rintro front field v back rfl h
    exact c.fillRecord_of_isLeftAlone locale h front back t

end Champion

end SpellText
