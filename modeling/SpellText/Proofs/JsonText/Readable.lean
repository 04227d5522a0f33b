import SpellText.Json.Reader
import SpellText.Proofs.Leaves

/-!
# What a reader of JSON gives

A value that was read is nested no deeper than the reader allows, no name comes twice in an
object of it, and its whole numbers fit 64 bits (`Json.IsReadable`). Reading gives no others
(`Json.isReadable_of_parse`), and new strings in such a value leave it such a value
(`Json.isReadable_mapTexts_iff`).
-/

namespace SpellText.Json

/-- The whole number fits 64 bits, signed or unsigned. -/
def FitsWord (n : Int) : Prop := -Nat.pow 2 63 ≤ n ∧ n < Nat.pow 2 64

/-- No name comes twice. -/
def HasDistinctNames (members : List (String × Json)) : Prop := (members.map Prod.fst).Nodup

mutual

/-- Arrays and objects are nested at most `depth` deep, the names in an object are distinct,
and whole numbers fit 64 bits. -/
def IsReadable (depth : Nat) : Json → Prop
  | number (.whole n) => FitsWord n
  | array items => 0 < depth ∧ AreReadable (depth - 1) items
  | object members =>
    0 < depth ∧ HasDistinctNames members ∧ HasReadableMembers (depth - 1) members
  | number (.real _) => True
  | string _ => True
  | bool _ => True
  | null => True

/-- All items of an array can be read. -/
def AreReadable (depth : Nat) : List Json → Prop
  | [] => True
  | item :: rest => item.IsReadable depth ∧ AreReadable depth rest

/-- All members of an object can be read. -/
def HasReadableMembers (depth : Nat) : List (String × Json) → Prop
  | [] => True
  | (_, v) :: rest => v.IsReadable depth ∧ HasReadableMembers depth rest

end

theorem areReadable_iff {depth : Nat} {items : List Json} :
    AreReadable depth items ↔ ∀ item ∈ items, item.IsReadable depth := by
  induction items with
  | nil => exact iff_of_true trivial nofun
  | cons item rest ih => rw [AreReadable, ih, List.forall_mem_cons]

theorem hasReadableMembers_iff {depth : Nat} {members : List (String × Json)} :
    HasReadableMembers depth members ↔ ∀ m ∈ members, m.2.IsReadable depth := by
  induction members with
  | nil => exact iff_of_true trivial nofun
  | cons m rest ih => rw [HasReadableMembers, ih, List.forall_mem_cons]

/-- A member that was written is the new one or was there. -/
theorem mem_insert {α : Type} {key : String} {a : α} {m : String × α} :
    ∀ {es : List (String × α)}, m ∈ Entries.insert key a es → m.2 = a ∨ m ∈ es
  | [], h => .inl (by rw [List.mem_singleton.1 h])
  | (k, b) :: es, h => by
    unfold Entries.insert Entries.update at h
    split at h
    · rcases List.mem_cons.1 h with rfl | h
      · exact .inl rfl
      · exact .inr (List.mem_cons_of_mem _ h)
    · rcases List.mem_cons.1 h with rfl | h
      · exact .inr List.mem_cons_self
      · exact (mem_insert h).imp_right (List.mem_cons_of_mem _)

/-! ## New strings -/

/-- New strings leave the names of members. -/
theorem names_mapTextsOfMembers (f : Path → String → String) (members : List (String × Json)) :
    (mapTextsOfMembers f members).map Prod.fst = members.map Prod.fst := by
  induction members with
  | nil => rfl
  | cons m rest ih => exact congrArg (m.1 :: ·) ih

mutual

/-- New strings make no difference to whether a value can be read. -/
theorem isReadable_mapTexts_iff {depth : Nat} (f : Path → String → String) :
    ∀ {v : Json}, (v.mapTexts f).IsReadable depth ↔ v.IsReadable depth
  | array items => by
    have hitems : AreReadable (depth - 1) (mapTextsOfItems f 0 items)
        ↔ AreReadable (depth - 1) items := areReadable_mapTexts_iff f
    exact and_congr_right fun _ => hitems
  | object members => by
    have hnames : HasDistinctNames (mapTextsOfMembers f members) ↔ HasDistinctNames members := by
      rw [HasDistinctNames, names_mapTextsOfMembers, HasDistinctNames]
    exact and_congr_right fun _ => and_congr hnames (hasReadableMembers_mapTexts_iff f)
  | number _ => Iff.rfl
  | string _ => Iff.rfl
  | bool _ => Iff.rfl
  | null => Iff.rfl

theorem areReadable_mapTexts_iff {depth : Nat} (f : Path → String → String) :
    ∀ {i : Nat} {items : List Json},
      AreReadable depth (mapTextsOfItems f i items) ↔ AreReadable depth items
  | _, [] => Iff.rfl
  | _, _ :: _ => and_congr (isReadable_mapTexts_iff _) (areReadable_mapTexts_iff f)

theorem hasReadableMembers_mapTexts_iff {depth : Nat} (f : Path → String → String) :
    ∀ {members : List (String × Json)},
      HasReadableMembers depth (mapTextsOfMembers f members) ↔ HasReadableMembers depth members
  | [] => Iff.rfl
  | _ :: _ => and_congr (isReadable_mapTexts_iff _) (hasReadableMembers_mapTexts_iff f)

end

/-! ## Reading -/

namespace Reader

/-- Digits are taken in while the significand fits. -/
theorem significand_takeWhole_le : ∀ {ds : List Char} {x : Scaled}, x.significand ≤ wordMax →
    (takeWhole x ds).significand ≤ wordMax
  | [], _, h => h
  | d :: ds, x, h => by
    unfold takeWhole
    dsimp only
    split
    · exact h
    · next hd => exact significand_takeWhole_le (Nat.not_lt.1 hd)

theorem isReadable_of_real {negative : Bool} {x : Scaled} {n : Number} {depth : Nat}
    (h : real? negative x = some n) : (number n).IsReadable depth := by
  obtain ⟨y, -, rfl⟩ := Option.map_eq_some_iff.1 h
  trivial

/-- A whole number that was read fits. -/
theorem isReadable_of_numberOf {negative : Bool} {whole : List Char} {fraction : Option (List Char)}
    {exponent : Option (Bool × List Char)} {n : Number} {depth : Nat}
    (h : numberOf? negative whole fraction exponent = some n) : (number n).IsReadable depth := by
  unfold numberOf? at h
  dsimp only at h
  split at h
  · have hs : (takeWhole ⟨0, 0⟩ whole).significand ≤ wordMax :=
      significand_takeWhole_le (Nat.zero_le _)
    split at h
    · exact isReadable_of_real h
    · split at h
      · cases h
        simp only [IsReadable, FitsWord, Nat.pow_eq]
        simp only [wordMax, Nat.pow_eq] at hs
        omega
      · split at h
        · next hsmall =>
          cases h
          simp only [IsReadable, FitsWord, Nat.pow_eq]
          simp only [Nat.pow_eq, Bool.and_eq_true, decide_eq_true_eq] at hsmall
          omega
        · exact isReadable_of_real h
  · exact isReadable_of_real h
  · obtain ⟨_, -, h⟩ := Option.bind_eq_some_iff.1 h
    exact isReadable_of_real h

/-- A number that was read fits. -/
theorem isReadable_of_number {s rest : List Char} {n : Number} {depth : Nat}
    (h : number? s = some (n, rest)) : (number n).IsReadable depth := by
  unfold number? at h
  simp only [Option.bind_eq_bind, Option.bind_eq_some_iff] at h
  obtain ⟨_, -, _, -, _, -, m, hm, h⟩ := h
  cases h
  exact isReadable_of_numberOf hm

mutual

/-- A value that was read can be read. -/
theorem isReadable_of_value : ∀ {fuel depth : Nat} {s rest : List Char} {v : Json},
    value? fuel depth s = some (v, rest) → v.IsReadable depth
  | 0, _, _, _, _, h => by cases h
  | fuel + 1, depth, s, rest, v, h => by
    rw [value?] at h
    split at h
    · cases h
      trivial
    · cases h
      trivial
    · cases h
      trivial
    · obtain ⟨_, -, he⟩ := Option.map_eq_some_iff.1 h
      cases he
      trivial
    · cases depth with
      | zero => cases h
      | succ depth =>
        dsimp only at h
        split at h
        · cases h
          exact ⟨Nat.succ_pos depth, trivial⟩
        · exact isReadable_of_items h nofun
    · cases depth with
      | zero => cases h
      | succ depth =>
        dsimp only at h
        split at h
        · cases h
          exact ⟨Nat.succ_pos depth, List.nodup_nil, trivial⟩
        · exact isReadable_of_members h List.nodup_nil nofun
    · obtain ⟨⟨n, _⟩, hn, he⟩ := Option.map_eq_some_iff.1 h
      cases he
      exact isReadable_of_number hn

/-- An array that was read fits, if the items in front do. -/
theorem isReadable_of_items : ∀ {fuel depth : Nat} {done : List Json} {s rest : List Char}
    {v : Json}, items? fuel depth done s = some (v, rest) →
      (∀ item ∈ done, item.IsReadable depth) → v.IsReadable (depth + 1)
  | 0, _, _, _, _, _, h, _ => by cases h
  | fuel + 1, depth, done, s, rest, v, h, hd => by
    rw [items?] at h
    split at h
    · cases h
    · next item _ hitem =>
      have hd' : ∀ other ∈ item :: done, other.IsReadable depth :=
        List.forall_mem_cons.2 ⟨isReadable_of_value hitem, hd⟩
      split at h
      · exact isReadable_of_items h hd'
      · cases h
        exact ⟨Nat.succ_pos depth,
          areReadable_iff.2 fun other ho => hd' other (List.mem_reverse.1 ho)⟩
      · cases h

/-- An object that was read fits, if the members in front do and have distinct names. -/
theorem isReadable_of_members : ∀ {fuel depth : Nat} {done : List (String × Json)}
    {s rest : List Char} {v : Json}, members? fuel depth done s = some (v, rest) →
      HasDistinctNames done → (∀ m ∈ done, m.2.IsReadable depth) → v.IsReadable (depth + 1)
  | 0, _, _, _, _, _, h, _, _ => by cases h
  | fuel + 1, depth, done, s, rest, v, h, hn, hd => by
    rw [members?] at h
    split at h
    · split at h
      · cases h
      · next key _ _ =>
        split at h
        · split at h
          · cases h
          · next item _ hitem =>
            -- A member that was read is written under its name, which keeps the names distinct.
            have hn' : HasDistinctNames (Entries.insert key item done) :=
              Entries.nodup_update key _ hn
            have hd' : ∀ m ∈ Entries.insert key item done, m.2.IsReadable depth := fun m hm =>
              (mem_insert hm).elim (fun he => he ▸ isReadable_of_value hitem) (hd m)
            dsimp only at h
            split at h
            · exact isReadable_of_members h hn' hd'
            · cases h
              exact ⟨Nat.succ_pos depth, hn', hasReadableMembers_iff.2 hd'⟩
            · cases h
        · cases h
    · cases h

end

end Reader

/-- What was read from a text can be read. -/
theorem isReadable_of_parse {text : String} {v : Json} (h : parse? text = some v) :
    v.IsReadable Reader.nestingLimit := by
  unfold parse? at h
  dsimp only at h
  split at h
  · next hr =>
    split at h
    · cases h
      exact Reader.isReadable_of_value hr
    · cases h
  · cases h

end SpellText.Json
