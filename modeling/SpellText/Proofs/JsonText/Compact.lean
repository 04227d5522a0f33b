import SpellText.Proofs.JsonText.Numbers

/-!
# Reading what was written

A value that can be read (`Json.IsReadable`) is read again from its compact text, with all its
strings, names, orders and whole numbers (`Json.parse?_compact`). Each double in it is read from
a decimal of its own that is rounded to it (`Number.exists_parse?_text`), by a reader that may
miss the nearest double by a little; where it does not, the value is the same again
(`Json.parse?_compact_of_stable`).

The reader is run on a text with more text behind it that does not go on with it
(`Reader.Ends`), as a part of a value stands in front of others. The induction is on the value,
as the reader calls itself for the parts of one.
-/

namespace SpellText.Json

/-! ## Strings -/

namespace Reader

theorem hexDigit?_hexChar : ∀ n < 16, Text.hexDigit? (hexChar n) = some n := by decide

/-- The four digits of an escape are those of a control character. -/
theorem unicodeEscape?_control {c : Char} (h : c.toNat < 0x20) (r : List Char) :
    unicodeEscape? ('0' :: '0' :: hexChar (c.toNat / 16) :: hexChar (c.toNat % 16) :: r)
      = some (c, r) := by
  have hword : hexWord? '0' '0' (hexChar (c.toNat / 16)) (hexChar (c.toNat % 16))
      = some c.toNat := by
    have hzero : Text.hexDigit? '0' = some 0 := by decide
    simp only [hexWord?, hzero, hexDigit?_hexChar _ (by omega : c.toNat / 16 < 16),
      hexDigit?_hexChar _ (Nat.mod_lt c.toNat (by decide : 0 < 16)), Option.bind_eq_bind,
      Option.bind_some, Option.pure_def, Option.some.injEq]
    omega
  have hlow : isLowSurrogate c.toNat = false := by
    rw [isLowSurrogate, Bool.and_eq_false_iff, decide_eq_false_iff_not]
    omega
  have hhigh : isHighSurrogate c.toNat = false := by
    rw [isHighSurrogate, Bool.and_eq_false_iff, decide_eq_false_iff_not]
    omega
  rw [unicodeEscape?, hword, Option.bind_eq_bind, Option.bind_some, hlow, hhigh]
  exact congrArg (some <| Prod.mk · r) (Char.ofNat_toNat c)

/-- A character inside a string is read back. -/
theorem stringChar?_escapeChar (c : Char) (r : List Char) :
    stringChar? (escapeChar c ++ r) = some (c, r) := by
  unfold escapeChar
  split
  · rfl
  · rfl
  · rfl
  · rfl
  · rfl
  · rfl
  · rfl
  · next hslash _ _ _ _ _ =>
    split
    · next hsmall => exact unicodeEscape?_control hsmall r
    · next hlarge =>
      have hplain : ¬ (c == '\\' || decide (c.toNat < 0x20)) = true := by
        rw [Bool.or_eq_true, beq_iff_eq, decide_eq_true_iff]
        exact fun h => h.elim hslash hlarge
      rw [List.singleton_append, stringChar?, if_neg hplain]
      · exact fun _ h _ => hslash h
      · exact fun _ _ h _ => hslash h

/-- No character inside a string is written with a quote in front. -/
theorem exists_escapeChar (c : Char) : ∃ d s, escapeChar c = d :: s ∧ d ≠ '"' := by
  unfold escapeChar
  split
  all_goals try exact ⟨_, _, rfl, by decide⟩
  next hquote _ _ _ _ _ _ =>
  split
  · exact ⟨_, _, rfl, by decide⟩
  · exact ⟨_, _, rfl, hquote⟩

/-- The characters of a string are read up to the closing quote. -/
theorem stringRest?_flatMap (r : List Char) : ∀ (cs : List Char) {rounds done : List Char},
    cs.length ≤ rounds.length → stringRest? rounds done (cs.flatMap escapeChar ++ '"' :: r)
      = some (String.ofList (done.reverse ++ cs), r)
  | [], rounds, done, _ => by
    rw [List.append_nil]
    cases rounds <;> rfl
  | c :: cs, [], _, h => absurd h (by simp)
  | c :: cs, _ :: rounds, done, h => by
    obtain ⟨d, s, hd, hne⟩ := exists_escapeChar c
    have hchar := stringChar?_escapeChar c (cs.flatMap escapeChar ++ '"' :: r)
    rw [List.flatMap_cons, List.append_assoc]
    rw [hd, List.cons_append] at hchar ⊢
    rw [stringRest?, hchar]
    · dsimp only
      rw [stringRest?_flatMap r cs (Nat.le_of_succ_le_succ h), List.reverse_cons,
        List.append_assoc, List.singleton_append]
    · exact fun _ h => hne (List.cons.inj h).1

/-- Every character of a string takes room in its text. -/
theorem length_le_flatMap (cs : List Char) : cs.length ≤ (cs.flatMap escapeChar).length := by
  induction cs with
  | nil => exact Nat.le_refl 0
  | cons c cs ih =>
    obtain ⟨d, s, hd, -⟩ := exists_escapeChar c
    rw [List.flatMap_cons, List.length_append, hd, List.length_cons, List.length_cons]
    omega

end Reader

theorem toList_quote (s : String) :
    (quote s).toList = '"' :: (s.toList.flatMap escapeChar ++ ['"']) :=
  String.toList_ofList

/-- A quoted string is read back behind its opening quote. -/
theorem Reader.string?_quote (s : String) (r : List Char) :
    string? (s.toList.flatMap escapeChar ++ '"' :: r) = some (s, r) := by
  have hlen := length_le_flatMap s.toList
  rw [string?, stringRest?_flatMap r s.toList (by rw [List.length_append]; omega)]
  exact congrArg (some <| Prod.mk · r) String.ofList_toList

/-! ## Numbers -/

/-- The text of a number is a numeral, or the word for nothing. -/
theorem Number.exists_numeral (n : Number) :
    n.text = "null" ∨ ∃ u : Numeral, u.IsWritten ∧ n.text.toList = u.chars := by
  cases n with
  | whole n => exact .inr ⟨.ofWhole n, Numeral.isWritten_ofWhole n, text_whole n⟩
  | real x =>
    cases hx : Decimal.Exact.ofFloat x with
    | finite negative m e =>
      obtain ⟨u, hu, -, -, htext⟩ := exists_numeral_of_real hx
      exact .inr ⟨u, hu, htext⟩
    | _ =>
      left
      rw [text, Decimal.Layout.text?, hx]
      rfl

/-- A numeral begins with a sign or a digit. -/
theorem Numeral.exists_chars {u : Numeral} (hu : u.IsWritten) :
    ∃ c s, u.chars = c :: s ∧ (c = '-' ∨ c.isDigit = true) := by
  obtain ⟨d, ds, hds⟩ := List.exists_cons_of_ne_nil hu.whole_ne_nil
  have hd : d.isDigit = true := hu.digits_whole d (hds ▸ List.mem_cons_self)
  cases h : u.negative with
  | true => exact ⟨'-', _, by rw [chars, h]; rfl, .inl rfl⟩
  | false => exact ⟨d, _, by rw [chars, h, hds]; rfl, .inr hd⟩

namespace Reader

theorem skipSpace_cons {c : Char} (h : isSpace c = false) (s : List Char) :
    skipSpace (c :: s) = c :: s :=
  List.dropWhile_cons_of_neg (Bool.eq_false_iff.1 h)

/-- A number begins with no blank and with no other sign than its own. -/
theorem ne_of_head {c : Char} (hc : c = '-' ∨ c.isDigit = true) :
    isSpace c = false ∧ ∀ d, d.isDigit = false → d ≠ '-' → c ≠ d := by
  have hne : ∀ d, d.isDigit = false → d ≠ '-' → c ≠ d := by
    rintro d hd hminus rfl
    rcases hc with h | h
    · exact hminus h
    · exact Bool.false_ne_true (hd.symm.trans h)
  refine ⟨?_, hne⟩
  simp only [isSpace, Bool.or_eq_false_iff, beq_eq_false_iff_ne]
  exact ⟨⟨⟨hne _ (by decide) (by decide), hne _ (by decide) (by decide)⟩,
    hne _ (by decide) (by decide)⟩, hne _ (by decide) (by decide)⟩

/-- What begins as a number does is read as a number. -/
theorem value?_of_head {c : Char} (hc : c = '-' ∨ c.isDigit = true) (s : List Char)
    (fuel depth : Nat) : value? (fuel + 1) depth (c :: s)
      = (number? (c :: s)).map fun (n, rest) => (.number n, rest) := by
  obtain ⟨hspace, hne⟩ := ne_of_head hc
  have hhead : ∀ {d : Char} {t : List Char}, d.isDigit = false → d ≠ '-' → c :: s ≠ d :: t :=
    fun hd hminus h => hne _ hd hminus (List.cons.inj h).1
  rw [value?, skipSpace_cons hspace]
  split
  case h_7 => rfl
  all_goals
    next h => exact absurd h (hhead (by decide) (by decide))

variable {r : List Char}

theorem value?_chars {u : Numeral} (hu : u.IsWritten) (hr : Ends r) (fuel depth : Nat) :
    value? (fuel + 1) depth (u.chars ++ r) = u.number?.map (.number ·, r) := by
  obtain ⟨c, s, hchars, hc⟩ := Numeral.exists_chars hu
  have hvalue := value?_of_head hc (s ++ r) fuel depth
  rw [← List.cons_append, ← hchars, number?_chars hu hr, Option.map_map] at hvalue
  exact hvalue

/-- What is read off a text whole is what the text is read as. -/
theorem parse?_of_value {text : String} {o : Option Json}
    (h : ∀ fuel, value? (fuel + 1) nestingLimit text.toList = o.map (·, [])) :
    parse? text = o := by
  unfold parse?
  dsimp only
  rw [h]
  cases o <;> rfl

/-- The text of a numeral is read as its number. -/
theorem parse?_of_text {u : Numeral} (hu : u.IsWritten) {text : String}
    (htext : text.toList = u.chars) : parse? text = u.number?.map number :=
  parse?_of_value fun fuel => by
    have hvalue := value?_chars hu ends_nil fuel nestingLimit
    rw [List.append_nil] at hvalue
    rw [htext, hvalue, Option.map_map]
    rfl

/-- The text of a number is read off whole, as what it is read as alone. -/
theorem value?_number (n : Number) (hr : Ends r) (fuel depth : Nat) :
    value? (fuel + 1) depth (n.text.toList ++ r) = (parse? n.text).map (·, r) := by
  rcases n.exists_numeral with hnull | ⟨u, hu, htext⟩
  · have hparse : parse? "null" = some null := parse?_of_value fun _ => rfl
    rw [hnull, hparse]
    rfl
  · rw [parse?_of_text hu htext, htext, value?_chars hu hr, Option.map_map]
    rfl

end Reader

/-- A whole number that fits is read as itself. -/
theorem parse?_text_whole {n : Int} (h : FitsWord n) :
    parse? (Number.whole n).text = some (number (.whole n)) := by
  rw [Reader.parse?_of_text (Numeral.isWritten_ofWhole n) (Number.text_whole n),
    Numeral.number?_ofWhole h]
  rfl

/-! ## Values -/

mutual

/-- The value with every number read from its text, unless one is out of range. -/
def reread? : Json → Option Json
  | number n => parse? n.text
  | array items => (rereadItems? items).map array
  | object members => (rereadMembers? members).map object
  | string s => some (string s)
  | bool b => some (bool b)
  | null => some null

/-- The items of an array with every number read from its text. -/
def rereadItems? : List Json → Option (List Json)
  | [] => some []
  | item :: rest => do return (← item.reread?) :: (← rereadItems? rest)

/-- The members of an object with every number read from its text. -/
def rereadMembers? : List (String × Json) → Option (List (String × Json))
  | [] => some []
  | (key, v) :: rest => do return (key, ← v.reread?) :: (← rereadMembers? rest)

end

theorem rereadItems?_cons (item : Json) (rest : List Json) : rereadItems? (item :: rest)
    = item.reread?.bind fun v => (rereadItems? rest).map (v :: ·) := by
  rw [rereadItems?]
  cases item.reread? <;> cases rereadItems? rest <;> rfl

theorem rereadMembers?_cons (key : String) (v : Json) (rest : List (String × Json)) :
    rereadMembers? ((key, v) :: rest)
      = v.reread?.bind fun w => (rereadMembers? rest).map ((key, w) :: ·) := by
  rw [rereadMembers?]
  cases v.reread? <;> cases rereadMembers? rest <;> rfl

/-! ### Texts of parts -/

/-- The texts of items, with commas between them. -/
def itemsChars (items : List Json) : List Char :=
  [','].intercalate ((compactItems items).map String.toList)

/-- The texts of members, with commas between them. -/
def membersChars (members : List (String × Json)) : List Char :=
  [','].intercalate ((compactMembers members).map String.toList)

theorem toList_compact_array (items : List Json) :
    (array items).compact.toList = '[' :: (itemsChars items ++ [']']) := by
  rw [compact, String.toList_append, String.toList_append, String.toList_intercalate]
  rfl

theorem toList_compact_object (members : List (String × Json)) :
    (object members).compact.toList = '\x7b' :: (membersChars members ++ ['\x7d']) := by
  rw [compact, String.toList_append, String.toList_append, String.toList_intercalate]
  rfl

theorem itemsChars_singleton (item : Json) : itemsChars [item] = item.compact.toList :=
  List.intercalate_singleton

theorem itemsChars_cons (item next : Json) (rest : List Json) :
    itemsChars (item :: next :: rest)
      = item.compact.toList ++ ',' :: itemsChars (next :: rest) := by
  rw [itemsChars, compactItems, compactItems, List.map_cons, List.map_cons,
    List.intercalate_cons_cons, List.append_assoc]
  rfl

/-- The text of a member. -/
def memberChars (m : String × Json) : List Char :=
  (quote m.1).toList ++ ':' :: m.2.compact.toList

theorem membersChars_singleton (m : String × Json) : membersChars [m] = memberChars m := by
  rw [membersChars, compactMembers, compactMembers, List.map_cons, List.map_nil,
    List.intercalate_singleton, String.toList_append, String.toList_append, List.append_assoc]
  rfl

theorem membersChars_cons (m next : String × Json) (rest : List (String × Json)) :
    membersChars (m :: next :: rest) = memberChars m ++ ',' :: membersChars (next :: rest) := by
  rw [membersChars, compactMembers, compactMembers, List.map_cons, List.map_cons,
    List.intercalate_cons_cons, String.toList_append, String.toList_append]
  simp only [memberChars, List.append_assoc]
  rfl

/-- The text of a value begins neither with a blank nor with a bracket that closes. -/
theorem exists_compact (v : Json) :
    ∃ c s, v.compact.toList = c :: s ∧ Reader.isSpace c = false ∧ c ≠ ']' := by
  cases v with
  | null => exact ⟨'n', ['u', 'l', 'l'], rfl, by decide, by decide⟩
  | bool b =>
    cases b
    · exact ⟨'f', ['a', 'l', 's', 'e'], rfl, by decide, by decide⟩
    · exact ⟨'t', ['r', 'u', 'e'], rfl, by decide, by decide⟩
  | number n =>
    rcases n.exists_numeral with hnull | ⟨u, hu, htext⟩
    · exact ⟨'n', ['u', 'l', 'l'], congrArg String.toList hnull, by decide, by decide⟩
    · obtain ⟨c, s, hchars, hc⟩ := Numeral.exists_chars hu
      obtain ⟨hspace, hne⟩ := Reader.ne_of_head hc
      exact ⟨c, s, htext.trans hchars, hspace, hne _ (by decide) (by decide)⟩
  | string s => exact ⟨'"', _, toList_quote s, by decide, by decide⟩
  | array items => exact ⟨'[', _, toList_compact_array items, by decide, by decide⟩
  | object members => exact ⟨'\x7b', _, toList_compact_object members, by decide, by decide⟩

theorem exists_itemsChars (item : Json) (rest : List Json) :
    ∃ c s, itemsChars (item :: rest) = c :: s ∧ Reader.isSpace c = false ∧ c ≠ ']' := by
  obtain ⟨c, s, hchars, hc⟩ := exists_compact item
  cases rest with
  | nil => exact ⟨c, s, (itemsChars_singleton item).trans hchars, hc⟩
  | cons next rest => exact ⟨c, _, by rw [itemsChars_cons, hchars]; rfl, hc⟩

/-- The text of some members begins with the quote of a name. -/
theorem exists_membersChars (m : String × Json) (rest : List (String × Json)) :
    ∃ s, membersChars (m :: rest) = '"' :: s := by
  have hm : ∃ s, memberChars m = '"' :: s := ⟨_, by rw [memberChars, toList_quote]; rfl⟩
  obtain ⟨s, hs⟩ := hm
  cases rest with
  | nil => exact ⟨s, (membersChars_singleton m).trans hs⟩
  | cons next rest => exact ⟨_, by rw [membersChars_cons, hs]; rfl⟩

namespace Reader

/-! ### Steps of the reader -/

section

variable {fuel depth : Nat} {s rest : List Char}

/-- A quoted string is read off whole as a value. -/
theorem value?_string (text : String) (fuel depth : Nat) (r : List Char) :
    value? (fuel + 1) depth ((quote text).toList ++ r) = some (string text, r) := by
  have h : value? (fuel + 1) depth ('"' :: (text.toList.flatMap escapeChar ++ '"' :: r))
      = (string? (text.toList.flatMap escapeChar ++ '"' :: r)).map (Prod.map string id) := rfl
  rw [toList_quote, List.cons_append, List.append_assoc, List.singleton_append, h, string?_quote]
  rfl

/-- Behind a bracket that opens, items are read unless it is closed at once. -/
theorem value?_items {c : Char} (hspace : isSpace c = false) (hc : c ≠ ']') (fuel depth : Nat)
    (s : List Char) : value? (fuel + 1) (depth + 1) ('[' :: c :: s)
      = items? fuel depth [] (c :: s) := by
  have hbracket : skipSpace ('[' :: c :: s) = '[' :: c :: s := skipSpace_cons (by decide) _
  rw [value?, hbracket]
  split
  case h_5 h =>
    rw [← (List.cons.inj h).2]
    dsimp only
    rw [skipSpace_cons hspace]
    split
    · next h => exact absurd (List.cons.inj h).1 hc
    · rfl
  case h_7 h _ => exact absurd rfl (h _)
  all_goals
    next h => exact absurd (List.cons.inj h).1 (by decide)

/-- Behind a brace that opens, members are read if a name follows. -/
theorem value?_members (fuel depth : Nat) (s : List Char) :
    value? (fuel + 1) (depth + 1) ('\x7b' :: '"' :: s) = members? fuel depth [] ('"' :: s) :=
  rfl

theorem items?_of_none {done : List Json} (h : value? fuel depth s = none) :
    items? (fuel + 1) depth done s = none := by
  rw [items?, h]

/-- Behind a comma the next item is read. -/
theorem items?_of_comma {done : List Json} {item : Json}
    (h : value? fuel depth s = some (item, ',' :: rest)) :
    items? (fuel + 1) depth done s = items? fuel depth (item :: done) rest := by
  rw [items?, h]
  rfl

/-- A bracket that closes ends the array. -/
theorem items?_of_bracket {done : List Json} {item : Json}
    (h : value? fuel depth s = some (item, ']' :: rest)) :
    items? (fuel + 1) depth done s = some (array (done.reverse ++ [item]), rest) := by
  rw [items?, h, ← List.reverse_cons]
  rfl

/-- Behind its name and a colon, the value of a member is read. -/
theorem members?_step (fuel depth : Nat) (done : List (String × Json)) (key : String)
    (s : List Char) : members? (fuel + 1) depth done ((quote key).toList ++ ':' :: s)
      = match value? fuel depth s with
        | none => none
        | some (item, rest) =>
          match skipSpace rest with
          | ',' :: rest => members? fuel depth (Entries.insert key item done) rest
          | '\x7d' :: rest => some (object (Entries.insert key item done), rest)
          | _ => none := by
  have hstring := string?_quote key (':' :: s)
  have hspace : skipSpace ('"' :: (key.toList.flatMap escapeChar ++ '"' :: ':' :: s))
      = '"' :: (key.toList.flatMap escapeChar ++ '"' :: ':' :: s) := skipSpace_cons (by decide) _
  have hcolon : skipSpace (':' :: s) = ':' :: s := skipSpace_cons (by decide) _
  rw [toList_quote, List.cons_append, List.append_assoc, List.singleton_append, members?, hspace]
  split
  · next h =>
    rw [← (List.cons.inj h).2, hstring]
    dsimp only
    rw [hcolon]
    rfl
  · next h => exact absurd rfl (h _)

theorem members?_of_none {done : List (String × Json)} (key : String)
    (h : value? fuel depth s = none) :
    members? (fuel + 1) depth done ((quote key).toList ++ ':' :: s) = none := by
  rw [members?_step, h]

/-- Behind a comma the next member is read. -/
theorem members?_of_comma {done : List (String × Json)} (key : String) {item : Json}
    (h : value? fuel depth s = some (item, ',' :: rest)) :
    members? (fuel + 1) depth done ((quote key).toList ++ ':' :: s)
      = members? fuel depth (Entries.insert key item done) rest := by
  rw [members?_step, h]
  rfl

/-- A brace that closes ends the object. -/
theorem members?_of_brace {done : List (String × Json)} (key : String) {item : Json}
    (h : value? fuel depth s = some (item, '\x7d' :: rest)) :
    members? (fuel + 1) depth done ((quote key).toList ++ ':' :: s)
      = some (object (Entries.insert key item done), rest) := by
  rw [members?_step, h]
  rfl

end

/-- A member with a new name comes last. -/
theorem insert_of_notMem {key : String} {v : Json} : ∀ {done : List (String × Json)},
    key ∉ done.map Prod.fst → Entries.insert key v done = done ++ [(key, v)]
  | [], _ => rfl
  | (k, w) :: done, h => by
    have hk : k ≠ key := fun he => h (he ▸ List.mem_cons_self)
    rw [Entries.insert, Entries.update, if_neg hk, List.cons_append]
    exact congrArg ((k, w) :: ·) (insert_of_notMem fun hm => h (List.mem_cons_of_mem _ hm))

/-- The name of a member is not among those in front of it. -/
theorem notMem_of_distinct {key : String} {v : Json} {done rest : List (String × Json)}
    (h : HasDistinctNames (done ++ (key, v) :: rest)) : key ∉ done.map Prod.fst := by
  rw [HasDistinctNames, List.map_append, List.map_cons] at h
  exact fun hm => (List.nodup_append.1 h).2.2 key hm key List.mem_cons_self rfl

theorem distinct_append {key : String} {v w : Json} {done rest : List (String × Json)}
    (h : HasDistinctNames (done ++ (key, v) :: rest)) :
    HasDistinctNames (done ++ [(key, w)] ++ rest) := by
  rw [HasDistinctNames, List.append_assoc]
  rw [HasDistinctNames] at h
  simpa using h

/-! ### Last and next parts -/

section

variable {fuel depth : Nat} {r : List Char}

/-- The last item is read up to the bracket that closes. -/
theorem items?_last {item : Json} {done : List Json}
    (hitem : value? fuel depth (item.compact.toList ++ ']' :: r)
      = item.reread?.map (·, ']' :: r)) :
    items? (fuel + 1) depth done (itemsChars [item] ++ ']' :: r)
      = (rereadItems? [item]).map fun items => (array (done.reverse ++ items), r) := by
  rw [itemsChars_singleton, rereadItems?_cons]
  cases hre : item.reread? with
  | none =>
    rw [hre] at hitem
    exact items?_of_none hitem
  | some v =>
    rw [hre] at hitem
    exact items?_of_bracket hitem

/-- An item is read up to the comma, and then the others. -/
theorem items?_next {item next : Json} {rest done : List Json}
    (hitem : value? fuel depth
        (item.compact.toList ++ ',' :: (itemsChars (next :: rest) ++ ']' :: r))
      = item.reread?.map (·, ',' :: (itemsChars (next :: rest) ++ ']' :: r)))
    (hrest : ∀ v, items? fuel depth (v :: done) (itemsChars (next :: rest) ++ ']' :: r)
      = (rereadItems? (next :: rest)).map fun items => (array ((v :: done).reverse ++ items), r)) :
    items? (fuel + 1) depth done (itemsChars (item :: next :: rest) ++ ']' :: r)
      = (rereadItems? (item :: next :: rest)).map
          fun items => (array (done.reverse ++ items), r) := by
  rw [itemsChars_cons, List.append_assoc, List.cons_append, rereadItems?_cons]
  cases hre : item.reread? with
  | none =>
    rw [hre] at hitem
    exact items?_of_none hitem
  | some v =>
    rw [hre] at hitem
    rw [items?_of_comma hitem, hrest, Option.bind_some, Option.map_map]
    simp only [Function.comp_def, List.reverse_cons, List.append_assoc, List.singleton_append]

/-- The last member is read up to the brace that closes. -/
theorem members?_last {key : String} {v : Json} {done : List (String × Json)}
    (hn : key ∉ done.map Prod.fst)
    (hitem : value? fuel depth (v.compact.toList ++ '\x7d' :: r)
      = v.reread?.map (·, '\x7d' :: r)) :
    members? (fuel + 1) depth done (membersChars [(key, v)] ++ '\x7d' :: r)
      = (rereadMembers? [(key, v)]).map fun members => (object (done ++ members), r) := by
  rw [membersChars_singleton, memberChars, List.append_assoc, List.cons_append,
    rereadMembers?_cons]
  cases hre : v.reread? with
  | none =>
    rw [hre] at hitem
    exact members?_of_none key hitem
  | some w =>
    rw [hre] at hitem
    rw [members?_of_brace key hitem, insert_of_notMem hn]
    rfl

/-- A member is read up to the comma, and then the others. -/
theorem members?_next {key : String} {v : Json} {next : String × Json}
    {rest done : List (String × Json)} (hn : key ∉ done.map Prod.fst)
    (hitem : value? fuel depth
        (v.compact.toList ++ ',' :: (membersChars (next :: rest) ++ '\x7d' :: r))
      = v.reread?.map (·, ',' :: (membersChars (next :: rest) ++ '\x7d' :: r)))
    (hrest : ∀ w, members? fuel depth (done ++ [(key, w)])
        (membersChars (next :: rest) ++ '\x7d' :: r) = (rereadMembers? (next :: rest)).map
          fun members => (object (done ++ [(key, w)] ++ members), r)) :
    members? (fuel + 1) depth done (membersChars ((key, v) :: next :: rest) ++ '\x7d' :: r)
      = (rereadMembers? ((key, v) :: next :: rest)).map
          fun members => (object (done ++ members), r) := by
  rw [membersChars_cons, memberChars, List.append_assoc, List.append_assoc, List.cons_append,
    List.cons_append, rereadMembers?_cons]
  cases hre : v.reread? with
  | none =>
    rw [hre] at hitem
    exact members?_of_none key hitem
  | some w =>
    rw [hre] at hitem
    rw [members?_of_comma key hitem, insert_of_notMem hn, hrest, Option.bind_some, Option.map_map]
    simp only [Function.comp_def, List.append_assoc, List.singleton_append]

end

/-! ### Lengths of the parts -/

theorem length_compact_lt_singleton (key : String) (v : Json) :
    v.compact.toList.length < (membersChars [(key, v)]).length := by
  rw [membersChars_singleton, memberChars, List.length_append, List.length_cons]
  exact Nat.lt_of_lt_of_le (Nat.lt_succ_self _) (Nat.le_add_left _ _)

/-- A value and the members behind it are shorter than the text of them all. -/
theorem length_compact_lt_cons (key : String) (v : Json) (next : String × Json)
    (rest : List (String × Json)) :
    v.compact.toList.length + (membersChars (next :: rest)).length
      < (membersChars ((key, v) :: next :: rest)).length := by
  rw [membersChars_cons, memberChars, List.length_append, List.length_append, List.length_cons,
    List.length_cons]
  generalize (quote key).toList.length = a
  generalize v.compact.toList.length = b
  generalize (membersChars (next :: rest)).length = c
  omega

/-! ### Values, items and members -/

mutual

/-- A value that can be read is read off its text whole. -/
theorem value?_compact : ∀ {v : Json} {fuel depth : Nat} {r : List Char}, v.IsReadable depth →
    2 * v.compact.toList.length < fuel → Ends r →
      value? fuel depth (v.compact.toList ++ r) = v.reread?.map (·, r)
  | _, 0, _, _, _, hf, _ => absurd hf (Nat.not_lt_zero _)
  | number n, fuel + 1, depth, r, _, _, hr => value?_number n hr fuel depth
  | null, _ + 1, _, _, _, _, _ => rfl
  | bool true, _ + 1, _, _, _, _, _ => rfl
  | bool false, _ + 1, _, _, _, _, _ => rfl
  | string s, fuel + 1, depth, r, _, _, _ => value?_string s fuel depth r
  | array _, _ + 1, 0, _, h, _, _ => absurd h.1 (Nat.lt_irrefl 0)
  | array [], _ + 1, _ + 1, _, _, _, _ => rfl
  | array (item :: rest), fuel + 1, depth + 1, r, h, hf, _ => by
    rw [toList_compact_array, List.length_cons, List.length_append] at hf
    obtain ⟨c, s, hchars, hspace, hc⟩ := exists_itemsChars item rest
    have hitems : items? fuel depth [] (itemsChars (item :: rest) ++ ']' :: r)
        = (rereadItems? (item :: rest)).map fun items => (array items, r) :=
      items?_itemsChars (List.cons_ne_nil _ _) h.2 (by omega)
    rw [toList_compact_array, List.cons_append, List.append_assoc, List.singleton_append, reread?]
    rw [hchars, List.cons_append] at hitems ⊢
    rw [value?_items hspace hc, hitems, Option.map_map]
    rfl
  | object _, _ + 1, 0, _, h, _, _ => absurd h.1 (Nat.lt_irrefl 0)
  | object [], _ + 1, _ + 1, _, _, _, _ => rfl
  | object (m :: rest), fuel + 1, depth + 1, r, h, hf, _ => by
    rw [toList_compact_object, List.length_cons, List.length_append] at hf
    obtain ⟨s, hchars⟩ := exists_membersChars m rest
    have hmembers : members? fuel depth [] (membersChars (m :: rest) ++ '\x7d' :: r)
        = (rereadMembers? (m :: rest)).map fun members => (object members, r) :=
      members?_membersChars [] (List.cons_ne_nil _ _) h.2.2 h.2.1 (by omega)
    rw [toList_compact_object, List.cons_append, List.append_assoc, List.singleton_append, reread?]
    rw [hchars, List.cons_append] at hmembers ⊢
    rw [value?_members, hmembers, Option.map_map]
    rfl

/-- Items that can be read are read off their text, behind others. -/
theorem items?_itemsChars : ∀ {items done : List Json} {fuel depth : Nat} {r : List Char},
    items ≠ [] → AreReadable depth items → 2 * (itemsChars items).length + 1 < fuel →
      items? fuel depth done (itemsChars items ++ ']' :: r)
        = (rereadItems? items).map fun items => (array (done.reverse ++ items), r)
  | [], _, _, _, _, hne, _, _ => absurd rfl hne
  | [item], done, fuel, depth, r, _, h, hf => by
    obtain ⟨fuel, rfl⟩ := Nat.exists_eq_succ_of_ne_zero (Nat.ne_zero_of_lt hf)
    rw [itemsChars_singleton] at hf
    exact items?_last (value?_compact h.1 (by omega) (ends_cons (.inr (.inl rfl)) r))
  | item :: next :: rest, done, fuel, depth, r, _, h, hf => by
    obtain ⟨fuel, rfl⟩ := Nat.exists_eq_succ_of_ne_zero (Nat.ne_zero_of_lt hf)
    rw [itemsChars_cons, List.length_append, List.length_cons] at hf
    exact items?_next (value?_compact h.1 (by omega) (ends_cons (.inl rfl) _))
      fun v => items?_itemsChars (List.cons_ne_nil _ _) h.2 (by omega)

/-- Members that can be read are read off their text, behind others with other names. -/
theorem members?_membersChars : ∀ {members : List (String × Json)}
    (done : List (String × Json)) {fuel depth : Nat} {r : List Char}, members ≠ [] →
      HasReadableMembers depth members → HasDistinctNames (done ++ members) →
        2 * (membersChars members).length + 1 < fuel →
        members? fuel depth done (membersChars members ++ '\x7d' :: r)
          = (rereadMembers? members).map fun members => (object (done ++ members), r)
  | [] => by
    intro _ _ _ _ hne
    exact absurd rfl hne
  | [(key, v)] => by
    intro done fuel depth r _ h hn hf
    obtain ⟨fuel, rfl⟩ := Nat.exists_eq_succ_of_ne_zero (Nat.ne_zero_of_lt hf)
    have hlen := length_compact_lt_singleton key v
    exact members?_last (notMem_of_distinct hn)
      (value?_compact h.1 (by omega) (ends_cons (.inr (.inr rfl)) r))
  | (key, v) :: next :: rest => by
    intro done fuel depth r _ h hn hf
    obtain ⟨fuel, rfl⟩ := Nat.exists_eq_succ_of_ne_zero (Nat.ne_zero_of_lt hf)
    have hlen := length_compact_lt_cons key v next rest
    exact members?_next (notMem_of_distinct hn)
      (value?_compact h.1 (by omega) (ends_cons (.inl rfl) _))
      fun w => members?_membersChars _ (List.cons_ne_nil _ _) h.2 (distinct_append hn) (by omega)

end

end Reader

/-- A value that can be read is read from its compact text with every number reread. -/
theorem parse?_compact {v : Json} (h : v.IsReadable Reader.nestingLimit) :
    parse? v.compact = v.reread? := by
  have hvalue : Reader.value? (2 * v.compact.toList.length + 2) Reader.nestingLimit
      (v.compact.toList ++ []) = v.reread?.map (·, []) :=
    Reader.value?_compact h (by omega) Reader.ends_nil
  rw [List.append_nil] at hvalue
  unfold parse?
  dsimp only
  rw [hvalue]
  cases v.reread? <;> rfl

/-! ## Values that come back -/

/-- A finite double is read from a numeral with its sign, of a decimal that is rounded to it. -/
theorem Number.exists_parse?_text {x : Float} {negative : Bool} {m : Nat} {e : Int}
    (h : Decimal.Exact.ofFloat x = .finite negative m e) :
    ∃ u : Numeral, u.IsWritten ∧ u.negative = negative ∧ Decimal.RoundsTo m e u.magnitude ∧
      parse? (real x).text = u.number?.map number := by
  obtain ⟨u, hu, hneg, hround, htext⟩ := exists_numeral_of_real h
  exact ⟨u, hu, hneg, hround, Reader.parse?_of_text hu htext⟩

mutual

/-- The doubles in a value. -/
def reals : Json → List Float
  | number (.real x) => [x]
  | array items => realsOfItems items
  | object members => realsOfMembers members
  | number (.whole _) => []
  | string _ => []
  | bool _ => []
  | null => []

/-- The doubles in the items of an array. -/
def realsOfItems : List Json → List Float
  | [] => []
  | item :: rest => item.reals ++ realsOfItems rest

/-- The doubles in the members of an object. -/
def realsOfMembers : List (String × Json) → List Float
  | [] => []
  | (_, v) :: rest => v.reals ++ realsOfMembers rest

end

mutual

/-- New strings leave the doubles as they are. -/
theorem reals_mapTexts (f : Path → String → String) : ∀ v : Json, (v.mapTexts f).reals = v.reals
  | array items => realsOfItems_mapTexts f 0 items
  | object members => realsOfMembers_mapTexts f members
  | number _ => rfl
  | string _ => rfl
  | bool _ => rfl
  | null => rfl

theorem realsOfItems_mapTexts (f : Path → String → String) : ∀ (i : Nat) (items : List Json),
    realsOfItems (mapTextsOfItems f i items) = realsOfItems items
  | _, [] => rfl
  | i, item :: rest =>
    congrArg₂ (· ++ ·) (reals_mapTexts _ item) (realsOfItems_mapTexts f (i + 1) rest)

theorem realsOfMembers_mapTexts (f : Path → String → String) :
    ∀ members : List (String × Json),
      realsOfMembers (mapTextsOfMembers f members) = realsOfMembers members
  | [] => rfl
  | (_, v) :: rest => congrArg₂ (· ++ ·) (reals_mapTexts _ v) (realsOfMembers_mapTexts f rest)

end

/-- The double is read from its text as itself. -/
def IsStable (x : Float) : Prop := parse? (Number.real x).text = some (number (.real x))

mutual

/-- A value with doubles that are read as themselves is the same when it is reread. -/
theorem reread?_of_stable : ∀ {v : Json} {depth : Nat}, v.IsReadable depth →
    (∀ x ∈ v.reals, IsStable x) → v.reread? = some v
  | number (.whole _), _, h, _ => parse?_text_whole h
  | number (.real x), _, _, hx => hx x List.mem_cons_self
  | array _, _, h, hx => by
    rw [reread?, rereadItems?_of_stable h.2 hx]
    rfl
  | object _, _, h, hx => by
    rw [reread?, rereadMembers?_of_stable h.2.2 hx]
    rfl
  | string _, _, _, _ => rfl
  | bool _, _, _, _ => rfl
  | null, _, _, _ => rfl

theorem rereadItems?_of_stable : ∀ {items : List Json} {depth : Nat}, AreReadable depth items →
    (∀ x ∈ realsOfItems items, IsStable x) → rereadItems? items = some items
  | [], _, _, _ => rfl
  | item :: rest, _, h, hx => by
    have hitem : item.reread? = some item :=
      reread?_of_stable h.1 fun x hm => hx x (List.mem_append_left _ hm)
    rw [rereadItems?_cons, hitem,
      rereadItems?_of_stable h.2 fun x hm => hx x (List.mem_append_right _ hm)]
    rfl

theorem rereadMembers?_of_stable : ∀ {members : List (String × Json)} {depth : Nat},
    HasReadableMembers depth members → (∀ x ∈ realsOfMembers members, IsStable x) →
      rereadMembers? members = some members
  | [], _, _, _ => rfl
  | (_, v) :: rest, _, h, hx => by
    have hv : v.reread? = some v :=
      reread?_of_stable h.1 fun x hm => hx x (List.mem_append_left _ hm)
    rw [rereadMembers?_cons, hv,
      rereadMembers?_of_stable h.2 fun x hm => hx x (List.mem_append_right _ hm)]
    rfl

end

/-- A value that can be read is read back from its compact text, where its doubles are. -/
theorem parse?_compact_of_stable {v : Json} (h : v.IsReadable Reader.nestingLimit)
    (hx : ∀ x ∈ v.reals, IsStable x) : parse? v.compact = some v :=
  (parse?_compact h).trans (reread?_of_stable h hx)

end SpellText.Json
