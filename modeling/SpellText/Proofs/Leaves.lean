import SpellText.Json.Basic

/-!
# Strings in trees

A JSON value is its *shape*, that is everything but what its strings say, and its
*leaves*, which are its strings in document order, each with its path. A value is
determined by the two (`Json.eq_of_shape_of_leaves`).

`Json.mapTexts` gives new strings to a value, each by its path. It keeps the shape
(`Json.shape_mapTexts`) and maps the leaves (`Json.leaves_mapTexts`).
-/

namespace SpellText.Json

/-- A step from a value to one of its parts. -/
inductive Step
  | item (index : Nat)
  | member (key : String)
  deriving DecidableEq, Repr

/-- The steps from a value to a part at any depth. -/
abbrev Path := List Step

/-- A string with the path to it. -/
structure Leaf where
  path : Path
  text : String
  deriving DecidableEq, Repr

/-- The leaf of a part as a leaf of the value around. -/
def Leaf.behind (step : Step) (l : Leaf) : Leaf := ⟨step :: l.path, l.text⟩

/-- The leaf with a new string. -/
def Leaf.mapText (f : Path → String → String) (l : Leaf) : Leaf := ⟨l.path, f l.path l.text⟩

/-- A leaf is known by where it lies in the value around. -/
theorem Leaf.behind_injective (step : Step) {l l' : Leaf} (h : l.behind step = l'.behind step) :
    l = l' := by
  cases l
  cases l'
  simpa [behind] using h

mutual

/-- The strings in a value in document order, with their paths. -/
def leaves : Json → List Leaf
  | string s => [⟨[], s⟩]
  | array items => leavesOfItems 0 items
  | object members => leavesOfMembers members
  | null => []
  | bool _ => []
  | number _ => []

/-- The strings in the items of an array from an index on. -/
def leavesOfItems : Nat → List Json → List Leaf
  | _, [] => []
  | i, item :: rest => item.leaves.map (.behind (.item i)) ++ leavesOfItems (i + 1) rest

/-- The strings in the members of an object. -/
def leavesOfMembers : List (String × Json) → List Leaf
  | [] => []
  | (key, v) :: rest => v.leaves.map (.behind (.member key)) ++ leavesOfMembers rest

end

mutual

/-- The value with a new string for every leaf. -/
def mapTexts (f : Path → String → String) : Json → Json
  | string s => string (f [] s)
  | array items => array (mapTextsOfItems f 0 items)
  | object members => object (mapTextsOfMembers f members)
  | null => null
  | bool b => bool b
  | number n => number n

/-- The items of an array from an index on, with a new string for every leaf. -/
def mapTextsOfItems (f : Path → String → String) : Nat → List Json → List Json
  | _, [] => []
  | i, item :: rest =>
    item.mapTexts (fun path => f (.item i :: path)) :: mapTextsOfItems f (i + 1) rest

/-- The members of an object with a new string for every leaf. -/
def mapTextsOfMembers (f : Path → String → String) : List (String × Json) → List (String × Json)
  | [] => []
  | (key, v) :: rest =>
    (key, v.mapTexts fun path => f (.member key :: path)) :: mapTextsOfMembers f rest

end

/-- The value with nothing in its strings. The keys and their order, the lengths of
arrays and whatever is not a string are left. -/
def shape (v : Json) : Json := v.mapTexts fun _ _ => ""

/-! ## New strings -/

theorem map_mapText_behind (f : Path → String → String) (step : Step) (ls : List Leaf) :
    (ls.map (Leaf.behind step)).map (Leaf.mapText f)
      = (ls.map (Leaf.mapText fun path => f (step :: path))).map (Leaf.behind step) := by
  rw [List.map_map, List.map_map]
  rfl

mutual

/-- The leaves have their new strings, at the same paths. -/
theorem leaves_mapTexts (f : Path → String → String) :
    ∀ v : Json, (v.mapTexts f).leaves = v.leaves.map (.mapText f)
  | string _ => rfl
  | array items => leavesOfItems_mapTexts f 0 items
  | object members => leavesOfMembers_mapTexts f members
  | null => rfl
  | bool _ => rfl
  | number _ => rfl

/-- So have the leaves of items. -/
theorem leavesOfItems_mapTexts (f : Path → String → String) : ∀ (i : Nat) (items : List Json),
    leavesOfItems i (mapTextsOfItems f i items) = (leavesOfItems i items).map (.mapText f)
  | _, [] => rfl
  | i, item :: rest => by
    rw [mapTextsOfItems, leavesOfItems, leavesOfItems, leaves_mapTexts,
      leavesOfItems_mapTexts f (i + 1) rest, List.map_append, map_mapText_behind]

/-- So have the leaves of members. -/
theorem leavesOfMembers_mapTexts (f : Path → String → String) : ∀ members : List (String × Json),
    leavesOfMembers (mapTextsOfMembers f members) = (leavesOfMembers members).map (.mapText f)
  | [] => rfl
  | (key, v) :: rest => by
    rw [mapTextsOfMembers, leavesOfMembers, leavesOfMembers, leaves_mapTexts,
      leavesOfMembers_mapTexts f rest, List.map_append, map_mapText_behind]

end

mutual

/-- New strings twice are new strings once. -/
theorem mapTexts_mapTexts (f g : Path → String → String) :
    ∀ v : Json, (v.mapTexts f).mapTexts g = v.mapTexts fun path s => g path (f path s)
  | string _ => rfl
  | array items => congrArg array (mapTextsOfItems_mapTexts f g 0 items)
  | object members => congrArg object (mapTextsOfMembers_mapTexts f g members)
  | null => rfl
  | bool _ => rfl
  | number _ => rfl

theorem mapTextsOfItems_mapTexts (f g : Path → String → String) :
    ∀ (i : Nat) (items : List Json), mapTextsOfItems g i (mapTextsOfItems f i items)
      = mapTextsOfItems (fun path s => g path (f path s)) i items
  | _, [] => rfl
  | i, item :: rest => by
    rw [mapTextsOfItems, mapTextsOfItems, mapTextsOfItems, mapTexts_mapTexts,
      mapTextsOfItems_mapTexts f g (i + 1) rest]

theorem mapTextsOfMembers_mapTexts (f g : Path → String → String) :
    ∀ members : List (String × Json), mapTextsOfMembers g (mapTextsOfMembers f members)
      = mapTextsOfMembers (fun path s => g path (f path s)) members
  | [] => rfl
  | (key, v) :: rest => by
    rw [mapTextsOfMembers, mapTextsOfMembers, mapTextsOfMembers, mapTexts_mapTexts,
      mapTextsOfMembers_mapTexts f g rest]

end

/-- New strings leave everything else as it is. -/
theorem shape_mapTexts (f : Path → String → String) (v : Json) : (v.mapTexts f).shape = v.shape :=
  mapTexts_mapTexts f _ v

mutual

/-- The same strings again change nothing. -/
theorem mapTexts_same : ∀ v : Json, (v.mapTexts fun _ s => s) = v
  | string _ => rfl
  | array items => congrArg array (mapTextsOfItems_same 0 items)
  | object members => congrArg object (mapTextsOfMembers_same members)
  | null => rfl
  | bool _ => rfl
  | number _ => rfl

theorem mapTextsOfItems_same : ∀ (i : Nat) (items : List Json),
    mapTextsOfItems (fun _ s => s) i items = items
  | _, [] => rfl
  | i, item :: rest => by
    rw [mapTextsOfItems, mapTexts_same, mapTextsOfItems_same (i + 1) rest]

theorem mapTextsOfMembers_same : ∀ members : List (String × Json),
    mapTextsOfMembers (fun _ s => s) members = members
  | [] => rfl
  | (key, v) :: rest => by
    rw [mapTextsOfMembers, mapTexts_same, mapTextsOfMembers_same rest]

end

/-! ## Shape and leaves -/

/-- Values of the same shape have as many leaves. -/
theorem length_leaves_of_shape {v w : Json} (h : v.shape = w.shape) :
    v.leaves.length = w.leaves.length := by
  have hv := congrArg List.length (leaves_mapTexts (fun _ _ => "") v)
  have hw := congrArg List.length (leaves_mapTexts (fun _ _ => "") w)
  rw [List.length_map] at hv hw
  rw [← hv, ← hw]
  exact congrArg (·.leaves.length) h

theorem map_behind_inj {step : Step} {ls ls' : List Leaf}
    (h : ls.map (Leaf.behind step) = ls'.map (Leaf.behind step)) : ls = ls' :=
  (List.map_inj_right fun _ _ => Leaf.behind_injective step).1 h

/-- Lists of leaves that go on after parts of the same shape. -/
theorem leaves_append_inj {v w : Json} {step : Step} {ls ls' : List Leaf} (hs : v.shape = w.shape)
    (h : v.leaves.map (.behind step) ++ ls = w.leaves.map (.behind step) ++ ls') :
    v.leaves = w.leaves ∧ ls = ls' := by
  have hl := length_leaves_of_shape hs
  obtain ⟨hv, hr⟩ := List.append_inj h (by simpa using hl)
  exact ⟨map_behind_inj hv, hr⟩

mutual

/-- A value is determined by its shape and its leaves. -/
theorem eq_of_shape_of_leaves :
    ∀ {v w : Json}, v.shape = w.shape → v.leaves = w.leaves → v = w
  | string s, w, hs, hl => by
    cases w with
    | string s' =>
      cases hl
      rfl
    | _ => cases hs
  | array items, w, hs, hl => by
    cases w with
    | array items' => exact congrArg array (eq_of_leavesOfItems (array.inj hs) hl)
    | _ => cases hs
  | object members, w, hs, hl => by
    cases w with
    | object members' => exact congrArg object (eq_of_leavesOfMembers (object.inj hs) hl)
    | _ => cases hs
  | null, w, hs, _ => by
    cases w with
    | null => rfl
    | _ => cases hs
  | bool b, w, hs, _ => by
    cases w with
    | bool b' => exact hs
    | _ => cases hs
  | number n, w, hs, _ => by
    cases w with
    | number n' => exact hs
    | _ => cases hs

/-- Items are determined by their shapes and their leaves. -/
theorem eq_of_leavesOfItems : ∀ {i : Nat} {items items' : List Json},
    mapTextsOfItems (fun _ _ => "") i items = mapTextsOfItems (fun _ _ => "") i items' →
      leavesOfItems i items = leavesOfItems i items' → items = items'
  | _, [], items', hs, _ => by
    cases items' with
    | nil => rfl
    | cons => cases hs
  | i, item :: rest, items', hs, hl => by
    cases items' with
    | nil => cases hs
    | cons item' rest' =>
      obtain ⟨hi, hr⟩ := List.cons.inj hs
      obtain ⟨hli, hlr⟩ := leaves_append_inj hi hl
      rw [eq_of_shape_of_leaves hi hli, eq_of_leavesOfItems hr hlr]

/-- Members are determined by their names, their shapes and their leaves. -/
theorem eq_of_leavesOfMembers : ∀ {members members' : List (String × Json)},
    mapTextsOfMembers (fun _ _ => "") members = mapTextsOfMembers (fun _ _ => "") members' →
      leavesOfMembers members = leavesOfMembers members' → members = members'
  | [], members', hs, _ => by
    cases members' with
    | nil => rfl
    | cons => cases hs
  | (key, v) :: rest, members', hs, hl => by
    cases members' with
    | nil => cases hs
    | cons m' rest' =>
      obtain ⟨key', v'⟩ := m'
      obtain ⟨hm, hr⟩ := List.cons.inj hs
      obtain ⟨rfl, hv⟩ := Prod.mk.inj hm
      obtain ⟨hlv, hlr⟩ := leaves_append_inj hv hl
      rw [eq_of_shape_of_leaves hv hlv, eq_of_leavesOfMembers hr hlr]

end

end SpellText.Json
