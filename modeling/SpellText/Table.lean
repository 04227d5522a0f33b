/-!
# Tables

A table maps names to values and remembers the order in which the names first
came. Writing under a known name replaces the value in place; a new name goes
to the end. The names of a table are distinct (`Table.distinct`).

`keys_update` says which names a table has after a write, and
`get?_update_self`, `get?_update_of_ne` what is then found under them.
-/

namespace SpellText

universe u v

variable {α : Type u} {β : Type v}

namespace Entries

/-- Change the value under `key`, or append one where the name is new. -/
def update (key : String) (f : Option α → α) : List (String × α) → List (String × α)
  | [] => [(key, f none)]
  | (k, a) :: rest => if k = key then (k, f (some a)) :: rest else (k, a) :: update key f rest

/-- The first value under `key`. -/
def get? (key : String) : List (String × α) → Option α
  | [] => none
  | (k, a) :: rest => if k = key then some a else get? key rest

/-- Write `a` under `key`. -/
def insert (key : String) (a : α) (es : List (String × α)) : List (String × α) :=
  update key (fun _ => a) es

/-- A write keeps the names in order and appends a new one. -/
theorem keys_update (key : String) (f : Option α → α) (es : List (String × α)) :
    (update key f es).map Prod.fst
      = if key ∈ es.map Prod.fst then es.map Prod.fst else es.map Prod.fst ++ [key] := by
  induction es with
  | nil => simp [update]
  | cons e rest ih =>
    obtain ⟨k, a⟩ := e
    by_cases h : k = key
    · simp [update, h]
    · have h' : key ≠ k := Ne.symm h
      simp only [update, h, if_false, List.map_cons, ih, List.mem_cons, h', false_or]
      split <;> simp

/-- A write finds the new value under its own name. -/
theorem get?_update_self (key : String) (f : Option α → α) (es : List (String × α)) :
    get? key (update key f es) = some (f (get? key es)) := by
  induction es with
  | nil => simp [update, get?]
  | cons e rest ih =>
    obtain ⟨k, a⟩ := e
    by_cases h : k = key <;> simp [update, get?, h, ih]

/-- A write leaves the other names alone. -/
theorem get?_update_of_ne {key other : String} (h : other ≠ key) (f : Option α → α)
    (es : List (String × α)) : get? other (update key f es) = get? other es := by
  induction es with
  | nil => simp [update, get?, Ne.symm h]
  | cons e rest ih =>
    obtain ⟨k, a⟩ := e
    by_cases hk : k = key
    · subst hk
      simp [update, get?, Ne.symm h]
    · simp [update, get?, hk, ih]

/-- Something is found under the names that occur, and nothing under the others. -/
theorem get?_eq_none_iff {key : String} {es : List (String × α)} :
    get? key es = none ↔ key ∉ es.map Prod.fst := by
  induction es with
  | nil => simp [get?]
  | cons e rest ih =>
    obtain ⟨k, a⟩ := e
    by_cases h : k = key
    · simp [get?, h]
    · simp [get?, h, Ne.symm h, ih]

/-- What is found under a name is an entry. -/
theorem mem_of_get? {key : String} {a : α} {es : List (String × α)} (h : get? key es = some a) :
    (key, a) ∈ es := by
  induction es with
  | nil => simp [get?] at h
  | cons e rest ih =>
    obtain ⟨k, b⟩ := e
    rw [get?] at h
    split at h
    · next hk =>
      cases h
      rw [hk]
      exact List.mem_cons_self
    · exact List.mem_cons_of_mem _ (ih h)

/-- Where the names are distinct, every entry is found under its name. -/
theorem get?_of_mem {key : String} {a : α} {es : List (String × α)}
    (h : (es.map Prod.fst).Nodup) (hm : (key, a) ∈ es) : get? key es = some a := by
  induction es with
  | nil => cases hm
  | cons e rest ih =>
    obtain ⟨hk, hr⟩ := List.nodup_cons.1 h
    rcases List.mem_cons.1 hm with rfl | hm
    · simp [get?]
    · have hne : e.1 ≠ key := fun h' => hk (h' ▸ List.mem_map_of_mem (f := Prod.fst) hm)
      rw [get?, if_neg hne]
      exact ih hr hm

/-- Changed values are found under the same names. -/
theorem get?_map (f : α → β) (key : String) (es : List (String × α)) :
    get? key (es.map fun e => (e.1, f e.2)) = (get? key es).map f := by
  induction es with
  | nil => rfl
  | cons e rest ih =>
    obtain ⟨k, a⟩ := e
    by_cases h : k = key <;> simp [get?, h, ih]

/-- A write keeps the names distinct. -/
theorem nodup_update (key : String) (f : Option α → α) {es : List (String × α)}
    (h : (es.map Prod.fst).Nodup) : ((update key f es).map Prod.fst).Nodup := by
  rw [keys_update]
  split
  · exact h
  · next hk =>
    refine List.nodup_append.2 ⟨h, by simp, ?_⟩
    intro a ha b hb
    simp only [List.mem_singleton] at hb
    subst hb
    exact fun e => hk (e ▸ ha)

end Entries

/-- Values under distinct names, in the order in which the names first came. -/
structure Table (α : Type u) where
  /-- The names with their values. -/
  entries : List (String × α)
  /-- No name occurs twice. -/
  distinct : (entries.map Prod.fst).Nodup

namespace Table

/-- The table without names. -/
def empty : Table α := ⟨[], List.nodup_nil⟩

instance : Inhabited (Table α) := ⟨empty⟩

/-- The table with a single name. -/
def single (key : String) (a : α) : Table α := ⟨[(key, a)], by simp⟩

/-- The names in order. -/
def keys (t : Table α) : List String := t.entries.map Prod.fst

/-- The number of names. -/
def size (t : Table α) : Nat := t.entries.length

/-- The value under `key`. -/
def get? (t : Table α) (key : String) : Option α := Entries.get? key t.entries

/-- Change the value under `key`, or append one where the name is new. -/
def update (t : Table α) (key : String) (f : Option α → α) : Table α :=
  ⟨Entries.update key f t.entries, Entries.nodup_update key f t.distinct⟩

/-- Write `a` under `key`. -/
def insert (t : Table α) (key : String) (a : α) : Table α := t.update key fun _ => a

/-- Write all pairs in order; of a repeated name the last value stays. -/
def insertAll (t : Table α) (es : List (String × α)) : Table α :=
  es.foldl (fun t e => t.insert e.1 e.2) t

/-- The table of the pairs; of a repeated name the last value stays, in the first place. -/
def ofList (es : List (String × α)) : Table α := empty.insertAll es

/-- Apply `f` to every value. -/
def map (f : α → β) (t : Table α) : Table β :=
  ⟨t.entries.map fun e => (e.1, f e.2), by simpa [List.map_map, Function.comp_def] using t.distinct⟩

/-- Tables with the same entries are equal. -/
theorem ext {t t' : Table α} (h : t.entries = t'.entries) : t = t' := by
  cases t
  cases t'
  simp_all

/-- What is found under a name is an entry. -/
theorem mem_of_get? {t : Table α} {key : String} {a : α} (h : t.get? key = some a) :
    (key, a) ∈ t.entries :=
  Entries.mem_of_get? h

/-- What is found under the names are the entries. -/
theorem get?_eq_some_iff {t : Table α} {key : String} {a : α} :
    t.get? key = some a ↔ (key, a) ∈ t.entries :=
  ⟨mem_of_get?, Entries.get?_of_mem t.distinct⟩

/-- The names after a write. -/
theorem keys_update (t : Table α) (key : String) (f : Option α → α) :
    (t.update key f).keys = if key ∈ t.keys then t.keys else t.keys ++ [key] :=
  Entries.keys_update key f t.entries

/-- A write finds the new value under its own name. -/
@[simp] theorem get?_update_self (t : Table α) (key : String) (f : Option α → α) :
    (t.update key f).get? key = some (f (t.get? key)) :=
  Entries.get?_update_self key f t.entries

/-- A write leaves the other names alone. -/
theorem get?_update_of_ne (t : Table α) {key other : String} (h : other ≠ key)
    (f : Option α → α) : (t.update key f).get? other = t.get? other :=
  Entries.get?_update_of_ne h f t.entries

/-- Inserting and looking up. -/
theorem get?_insert (t : Table α) (key other : String) (a : α) :
    (t.insert key a).get? other = if other = key then some a else t.get? other := by
  by_cases h : other = key
  · subst h
    simp [insert]
  · simp [insert, get?_update_of_ne t h, h]

/-- Nothing is found under the names that do not occur. -/
theorem get?_eq_none_iff {t : Table α} {key : String} : t.get? key = none ↔ key ∉ t.keys :=
  Entries.get?_eq_none_iff

/-- Changed values are found under the same names. -/
theorem get?_map (f : α → β) (t : Table α) (key : String) :
    (t.map f).get? key = (t.get? key).map f :=
  Entries.get?_map f key t.entries

/-- The empty table has nothing under any name. -/
@[simp] theorem get?_empty (key : String) : (empty : Table α).get? key = none := rfl

/-- Of pairs that are written later, the later ones are found. -/
theorem get?_insertAll (t : Table α) (es : List (String × α)) (key : String) :
    (t.insertAll es).get? key = ((ofList es).get? key).or (t.get? key) := by
  induction es generalizing t with
  | nil => rfl
  | cons e es ih =>
    have h : ∀ t : Table α, t.insertAll (e :: es) = (t.insert e.1 e.2).insertAll es := fun _ => rfl
    rw [ofList, h, h, ih, ih, Option.or_assoc, get?_insert, get?_insert, get?_empty]
    congr 1
    split <;> rfl

/-- Of names that all get one value, each leads to it. -/
theorem get?_insertAll_map (t : Table α) (names : List String) (a : α) (key : String) :
    (t.insertAll (names.map (·, a))).get? key = if key ∈ names then some a else t.get? key := by
  induction names generalizing t with
  | nil => rfl
  | cons name names ih =>
    have h : t.insertAll ((name :: names).map (·, a))
        = (t.insert name a).insertAll (names.map (·, a)) := rfl
    rw [h, ih, get?_insert]
    by_cases hk : key = name <;> by_cases hm : key ∈ names <;> simp [hk, hm]

theorem get?_ofList_append (es es' : List (String × α)) (key : String) :
    (ofList (es ++ es')).get? key = ((ofList es').get? key).or ((ofList es).get? key) := by
  rw [← get?_insertAll, ofList, insertAll, List.foldl_append]
  rfl

theorem get?_ofList_cons (e : String × α) (es : List (String × α)) (key : String) :
    (ofList (e :: es)).get? key
      = ((ofList es).get? key).or (if key = e.1 then some e.2 else none) := by
  rw [← List.singleton_append, get?_ofList_append]
  exact congrArg _ (get?_insert empty e.1 key e.2)

/-- What is found under a name is one of the pairs. -/
theorem mem_of_get?_ofList {es : List (String × α)} {key : String} {a : α}
    (h : (ofList es).get? key = some a) : (key, a) ∈ es := by
  induction es with
  | nil => cases h
  | cons e es ih =>
    rw [get?_ofList_cons] at h
    cases he : (ofList es).get? key with
    | some b =>
      rw [he] at h
      cases h
      exact List.mem_cons_of_mem _ (ih he)
    | none =>
      rw [he, Option.none_or] at h
      split at h
      · next hk =>
        cases h
        rw [hk]
        exact List.mem_cons_self
      · cases h

/-- Nothing is found under the names that are in no pair. -/
theorem get?_ofList_eq_none_iff {es : List (String × α)} {key : String} :
    (ofList es).get? key = none ↔ key ∉ es.map Prod.fst := by
  induction es with
  | nil => simp [ofList, insertAll]
  | cons e es ih =>
    rw [get?_ofList_cons, Option.or_eq_none_iff, ih, List.map_cons, List.mem_cons, not_or,
      and_comm]
    simp

/-- Mapping keeps the names. -/
@[simp] theorem keys_map (f : α → β) (t : Table α) : (t.map f).keys = t.keys := by
  simp [keys, map, List.map_map, Function.comp_def]

end Table

end SpellText
