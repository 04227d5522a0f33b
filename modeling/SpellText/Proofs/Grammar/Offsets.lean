import Mathlib.Logic.Relation
import SpellText.Proofs.Grammar.Tokens

/-!
# Where reading gives up

A reader goes on, or gives up, at the end of the text that it was given : what it hands on
is a suffix of that text (`Stays`). Whoever reads the operands is a parameter of the readers,
and `stays_unary` ties the knot by induction on the depth. So all texts that come up while a
source is read are suffixes of the source (`suffix_of_handsOn`), those in argument lists that
are abandoned included.

The offset of a syntax error is the length of the source less that of such a suffix.
`parse_offsets` says what this makes of it : a position in the source, at the character that
the complaint names, or at the end if the complaint is that the source ends.
-/

namespace SpellText.Expr

open Relation (ReflTransGen)

/-! ## Lengths in bytes -/

theorem byteLength_cons (c : Char) (s : List Char) :
    byteLength (c :: s) = c.utf8Size + byteLength s :=
  rfl

theorem byteLength_append (a b : List Char) :
    byteLength (a ++ b) = byteLength a + byteLength b := by
  induction a with
  | nil => exact (Nat.zero_add _).symm
  | cons c a ih => rw [List.cons_append, byteLength_cons, byteLength_cons, ih, Nat.add_assoc]

theorem utf8ByteSize_ofList (s : List Char) : (String.ofList s).utf8ByteSize = byteLength s := by
  induction s with
  | nil => rfl
  | cons c s ih =>
    rw [String.ofList_cons, String.utf8ByteSize_append, String.utf8ByteSize_singleton, ih,
      byteLength_cons]

theorem byteLength_toList (source : String) : byteLength source.toList = source.utf8ByteSize := by
  rw [← utf8ByteSize_ofList, String.ofList_toList]

/-- What stands before a suffix makes up the difference of the lengths. -/
theorem byteLength_sub {front rest s : List Char} (h : front ++ rest = s) :
    byteLength s - byteLength rest = byteLength front := by
  rw [← h, byteLength_append, Nat.add_sub_cancel]

/-! ## What readers hand on -/

/-- The text behind the value, or the place where the reader gave up. -/
def Outcome.place {α : Type} : Outcome α → List Char
  | done _ rest => rest
  | unexpected rest => rest
  | tooDeep rest => rest

/-- The reader hands on suffixes of the text only. -/
def Stays {α : Type} (read : List Char → Outcome α) : Prop := ∀ s, (read s).place <:+ s

/-- Of two steps that stay in the text each, both do. -/
theorem Outcome.place_andThen {α β : Type} {o : Outcome α} {k : α → List Char → Outcome β}
    {s : List Char} (ho : o.place <:+ s)
    (hk : ∀ a rest, rest <:+ s → (k a rest).place <:+ s) : (o.andThen k).place <:+ s := by
  cases o with
  | done a rest => exact hk a rest ho
  | unexpected rest | tooDeep rest => exact ho

/-- A tree whose height is measured stays in the text, whether it is refused or not. -/
theorem place_grown {limit : Nat} {place rest s : List Char} {e : Expr} (hp : place <:+ s)
    (hr : rest <:+ s) : (grown limit place e rest).place <:+ s := by
  unfold grown
  split
  · exact hp
  · exact hr

/-! ## Tokens -/

theorem skipSpace_suffix (s : List Char) : skipSpace s <:+ s := List.dropWhile_suffix _

theorem suffix_of_symbol {c : Char} {s rest : List Char} (h : symbol? c s = some rest) :
    rest <:+ s := by
  obtain ⟨o, -, hs⟩ := symbol_sound h
  exact ⟨o, hs.symm⟩

theorem suffix_of_sign {s rest : List Char} {sign : Sign} (h : sign? s = some (sign, rest)) :
    rest <:+ s := by
  obtain ⟨o, -, hs⟩ := sign_sound h
  exact ⟨o, hs.symm⟩

theorem suffix_of_powerSign {s rest : List Char} (h : powerSign? s = some rest) : rest <:+ s := by
  obtain ⟨o, -, hs⟩ := powerSign_sound h
  exact ⟨o, hs.symm⟩

theorem suffix_of_number {s rest : List Char} {e : Expr} (h : number? s = some (e, rest)) :
    rest <:+ s := by
  obtain ⟨x, t, o, -, -, -, -, hs⟩ := number_sound h
  exact ⟨o, hs.symm⟩

theorem suffix_of_name {s rest : List Char} {f : String} (h : name? s = some (f, rest)) :
    rest <:+ s := by
  obtain ⟨t, o, -, -, -, hs⟩ := name_sound h
  exact ⟨o, hs.symm⟩

theorem TakesOp.suffix {l : Level} {op? : List Char → Option (Op × List Char)} (hop : TakesOp l op?)
    {s rest : List Char} {op : Op} (h : op? s = some (op, rest)) : rest <:+ s := by
  obtain ⟨-, o, -, hs⟩ := hop h
  exact ⟨o, hs.symm⟩

/-! ## Trees -/

section

variable {limit : Nat} {operand argument : Reader}

/-- A chain goes on and fails in the text, by induction on its rounds. -/
theorem place_chainRest {l : Level} {op? : List Char → Option (Op × List Char)}
    (hop : TakesOp l op?) (hr : Stays operand) :
    ∀ (rounds : Nat) (left : Expr) (s : List Char),
      (chainRest limit op? operand rounds left s).place <:+ s := by
  intro rounds
  induction rounds with
  | zero => exact fun _ s => List.suffix_rfl
  | succ rounds ih =>
    intro left s
    unfold chainRest
    split
    · exact List.suffix_rfl
    · next op next hs =>
      have hnext : (operand next).place <:+ s := (hr next).trans (hop.suffix hs)
      refine Outcome.place_andThen hnext fun right rest hrest => ?_
      -- That the tree is too high is noticed in front of the operator.
      refine Outcome.place_andThen (place_grown List.suffix_rfl hrest) fun e behind hbehind => ?_
      exact (ih e behind).trans hbehind

/-- A chain stays in the text if its operands do. -/
theorem Stays.chain {l : Level} {op? : List Char → Option (Op × List Char)} (hop : TakesOp l op?)
    (hr : Stays operand) : Stays (chain limit op? operand) := fun s =>
  Outcome.place_andThen (hr s) fun left rest hrest =>
    (place_chainRest hop hr limit left rest).trans hrest

theorem Stays.term (hr : Stays operand) : Stays (Expr.chain limit termOp? operand) :=
  .chain termOp_sound hr

theorem Stays.additive (hr : Stays operand) :
    Stays (Expr.chain limit additiveOp? (Expr.chain limit termOp? operand)) :=
  .chain additiveOp_sound hr.term

theorem Stays.comparison (hr : Stays operand) : Stays (comparison limit operand) :=
  .chain comparisonOp_sound hr.additive

/-- Arguments go on and fail in the text, by induction on their rounds. -/
theorem place_argumentsRest (hr : Stays argument) :
    ∀ (rounds : List Char) (done : List Expr) (s : List Char),
      (argumentsRest argument rounds done s).place <:+ s := by
  intro rounds
  induction rounds with
  | nil => exact fun _ s => List.suffix_rfl
  | cons _ rounds ih =>
    intro done s
    unfold argumentsRest
    split
    · exact List.suffix_rfl
    · next next hs =>
      have hplace : (argument next).place <:+ s := (hr next).trans (suffix_of_symbol hs)
      split
      · next e rest he =>
        rw [he] at hplace
        exact (ih (e :: done) rest).trans hplace
      · exact List.suffix_rfl
      · next place he =>
        rw [he] at hplace
        exact hplace

/-- Arguments stay in the text if each does. -/
theorem Stays.arguments (hr : Stays argument) : Stays (arguments argument) := by
  intro s
  have hplace := hr s
  unfold Expr.arguments
  split
  · next e rest he =>
    rw [he] at hplace
    exact (place_argumentsRest hr rest [e] rest).trans hplace
  · exact List.suffix_rfl
  · next place he =>
    rw [he] at hplace
    exact hplace

theorem Stays.nameOrCall (hr : Stays operand) : Stays (nameOrCall limit operand) := by
  intro s
  unfold Expr.nameOrCall
  split
  · exact skipSpace_suffix s
  · next f rest hf =>
    have hrest : rest <:+ s := suffix_of_name hf
    split
    · exact hrest
    · next inside hi =>
      have hinside : inside <:+ s := (suffix_of_symbol hi).trans hrest
      refine Outcome.place_andThen ((hr.comparison.arguments inside).trans hinside)
        fun args afterArgs hargs => ?_
      split
      · exact hrest
      · next behind hb =>
        have hbehind : behind <:+ s := (suffix_of_symbol hb).trans hargs
        exact place_grown hbehind hbehind

/-- An operand without signs stays in the text if what is in it does. -/
theorem Stays.primary (hr : Stays operand) : Stays (primary limit operand) := by
  intro s
  unfold Expr.primary
  split
  · next inside hi =>
    have hinside : inside <:+ s := suffix_of_symbol hi
    refine Outcome.place_andThen ((hr.comparison inside).trans hinside) fun e rest hrest => ?_
    split
    · next behind hb => exact (suffix_of_symbol hb).trans hrest
    · exact (skipSpace_suffix rest).trans hrest
  · split
    · next e rest hn => exact suffix_of_number hn
    · exact hr.nameOrCall s

theorem Stays.power (hr : Stays operand) : Stays (power limit operand) := by
  refine fun s => Outcome.place_andThen (hr.primary s) fun base rest hrest => ?_
  split
  · exact hrest
  · next next hs =>
    have hnext : next <:+ s := (suffix_of_powerSign hs).trans hrest
    exact Outcome.place_andThen ((hr next).trans hnext) fun exponent behind hbehind =>
      place_grown hrest hbehind

end

/-- Operands are read within the text, at any depth. -/
theorem stays_unary (limit depth : Nat) : Stays (unary limit depth) := by
  induction depth with
  | zero => exact fun s => List.suffix_rfl
  | succ depth ih =>
    intro s
    unfold unary
    split
    · next sign next hs =>
      exact Outcome.place_andThen ((ih next).trans (suffix_of_sign hs)) fun e rest hrest =>
        place_grown List.suffix_rfl hrest
    · exact ih.power s

/-! ## All texts that come up -/

/-- The readers of tokens, with nothing but the text behind the token. -/
def tokenReaders : List (List Char → Option (List Char)) :=
  [symbol? '(', symbol? ')', symbol? ',', powerSign?, fun s => (sign? s).map Prod.snd,
    fun s => (comparisonOp? s).map Prod.snd, fun s => (additiveOp? s).map Prod.snd,
    fun s => (termOp? s).map Prod.snd, fun s => (number? s).map Prod.snd,
    fun s => (name? s).map Prod.snd]

/-- The readers of trees, one for each level of the grammar, where operands are read
by `operand`. -/
def treeReaders (operand : Reader) : List Reader :=
  [nameOrCall depthLimit operand, primary depthLimit operand, power depthLimit operand, operand,
    chain depthLimit termOp? operand,
    chain depthLimit additiveOp? (chain depthLimit termOp? operand),
    comparison depthLimit operand]

/-- Given the text `s`, some reader hands on `t`, as the text behind what it has read or
as the place where it has given up. -/
inductive HandsOn : List Char → List Char → Prop
  /-- A token is read. -/
  | token {read? : List Char → Option (List Char)} {s t : List Char} :
    read? ∈ tokenReaders → read? s = some t → HandsOn s t
  /-- A token is missed behind the blanks. -/
  | missed (s : List Char) : HandsOn s (skipSpace s)
  /-- A tree is read, or not. -/
  | tree {read : Reader} {depth : Nat} (s : List Char) :
    read ∈ treeReaders (unary depthLimit depth) → HandsOn s (read s).place
  /-- Arguments are read, or not. -/
  | arguments (depth : Nat) (s : List Char) :
    HandsOn s (arguments (comparison depthLimit (unary depthLimit depth)) s).place

/-- What is left behind any token ends the text. -/
theorem suffix_of_tokenReaders {read? : List Char → Option (List Char)}
    (hmem : read? ∈ tokenReaders) {s t : List Char} (h : read? s = some t) : t <:+ s := by
  simp only [tokenReaders, List.mem_cons, List.not_mem_nil, or_false] at hmem
  have hsnd : ∀ {α : Type} {r? : Option (α × List Char)}, r?.map Prod.snd = some t →
      ∃ a, r? = some (a, t) := by
    intro α r? hr
    obtain ⟨p, hp, rfl⟩ := Option.map_eq_some_iff.1 hr
    exact ⟨p.1, hp⟩
  rcases hmem with rfl | rfl | rfl | rfl | rfl | rfl | rfl | rfl | rfl | rfl
  · exact suffix_of_symbol h
  · exact suffix_of_symbol h
  · exact suffix_of_symbol h
  · exact suffix_of_powerSign h
  · obtain ⟨sign, h⟩ := hsnd h
    exact suffix_of_sign h
  · obtain ⟨op, h⟩ := hsnd h
    exact comparisonOp_sound.suffix h
  · obtain ⟨op, h⟩ := hsnd h
    exact additiveOp_sound.suffix h
  · obtain ⟨op, h⟩ := hsnd h
    exact termOp_sound.suffix h
  · obtain ⟨e, h⟩ := hsnd h
    exact suffix_of_number h
  · obtain ⟨f, h⟩ := hsnd h
    exact suffix_of_name h

/-- Every reader of trees stays in the text if that of operands does. -/
theorem stays_of_treeReaders {operand read : Reader} (hr : Stays operand)
    (hmem : read ∈ treeReaders operand) : Stays read := by
  simp only [treeReaders, List.mem_cons, List.not_mem_nil, or_false] at hmem
  rcases hmem with rfl | rfl | rfl | rfl | rfl | rfl | rfl
  · exact hr.nameOrCall
  · exact hr.primary
  · exact hr.power
  · exact hr
  · exact hr.term
  · exact hr.additive
  · exact hr.comparison

/-- What a reader hands on ends the text that it was given. -/
theorem HandsOn.suffix {s t : List Char} (h : HandsOn s t) : t <:+ s := by
  cases h with
  | token hmem h => exact suffix_of_tokenReaders hmem h
  | missed => exact skipSpace_suffix s
  | tree _ hmem => exact stays_of_treeReaders (stays_unary _ _) hmem s
  | arguments depth => exact (stays_unary _ depth).comparison.arguments s

/-- Whatever comes up while a text is read is a suffix of it. -/
theorem suffix_of_handsOn {s t : List Char} (h : ReflTransGen HandsOn s t) : t <:+ s := by
  induction h with
  | refl => exact List.suffix_rfl
  | tail _ h ih => exact h.suffix.trans ih

/-! ## Complaints -/

namespace SyntaxError

/-- The twelfth character of a complaint tells what is wrong. -/
def mark : SyntaxError → Char
  | empty => 's'
  | tooDeep _ => 'n'
  | unexpected _ _ => '\''
  | endOfInput _ => 'e'

/-- The twelfth character of a complaint marks its kind. -/
theorem getElem?_complaint (e : SyntaxError) : e.complaint.toList[11]? = some e.mark := by
  cases e with
  | empty => exact (by decide : "empty expression".toList[11]? = some 's')
  | tooDeep n => exact (by decide : (tooDeep 0).complaint.toList[11]? = some 'n')
  | unexpected c n =>
    have hs : (unexpected c n).complaint = "unexpected '" ++ (c.toString ++ "'") :=
      String.append_assoc
    have hlen : 11 < "unexpected '".toList.length := by decide
    rw [hs, String.toList_append]
    have hq : "unexpected '".toList[11]? = some '\'' := by decide
    exact (List.getElem?_append_left hlen).trans hq
  | endOfInput n => exact (by decide : "unexpected end of input".toList[11]? = some 'e')

/-- A complaint about a character is about that one only. -/
theorem complaint_unexpected_inj {c d : Char} {n : Nat}
    (h : (unexpected d n).complaint = "unexpected '" ++ c.toString ++ "'") : d = c := by
  have hc : "unexpected '" ++ d.toString = "unexpected '" ++ c.toString :=
    (String.append_left_inj _).1 h
  exact String.singleton_inj.1 ((String.append_right_inj _).1 hc)

/-- The same complaint is of the same kind. -/
theorem mark_eq_of_complaint_eq {e f : SyntaxError} (h : e.complaint = f.complaint) :
    e.mark = f.mark := by
  have he := e.getElem?_complaint
  rw [h, f.getElem?_complaint] at he
  exact (Option.some.inj he).symm

theorem complaint_eq_unexpected {e : SyntaxError} {c : Char}
    (h : e.complaint = "unexpected '" ++ c.toString ++ "'") : ∃ n, e = .unexpected c n := by
  have hm : e.mark = '\'' := mark_eq_of_complaint_eq (f := unexpected c 0) h
  cases e with
  | unexpected d n => exact ⟨n, by rw [complaint_unexpected_inj h]⟩
  | empty | tooDeep n | endOfInput n => cases hm

theorem complaint_eq_endOfInput {e : SyntaxError} (h : e.complaint = "unexpected end of input") :
    ∃ n, e = .endOfInput n := by
  have hm : e.mark = 'e' := mark_eq_of_complaint_eq (f := endOfInput 0) h
  cases e with
  | endOfInput n => exact ⟨n, rfl⟩
  | empty | tooDeep n | unexpected c n => cases hm

end SyntaxError

/-! ## Offsets -/

/-- What follows a place in the source makes for a position there. -/
theorem exists_splits {source : String} {front rest : List Char}
    (h : front ++ rest = source.toList) :
    ∃ p : source.Pos, p.Splits (.ofList front) (.ofList rest) := by
  have hs : source = String.ofList front ++ String.ofList rest := by
    rw [← String.ofList_append, h, String.ofList_toList]
  exact ⟨⟨(String.ofList front).rawEndPos,
    String.Pos.Raw.isValid_iff_exists_append.2 ⟨_, _, hs, rfl⟩⟩, hs, rfl⟩

/-- Where a source is given up, other than for being blank, some reader has handed on the
rest, and the offset is the length of what stands before it. -/
theorem exists_rest_of_parse {source : String} {e : SyntaxError} (h : parse source = .error e) :
    e = .empty ∨ ∃ rest, HandsOn source.toList rest ∧
      e.offset = byteLength source.toList - byteLength rest ∧
      (∀ c n, e = .unexpected c n → ∃ t, rest = c :: t) ∧ ∀ n, e = .endOfInput n → rest = [] := by
  unfold parse parseChars at h
  dsimp only at h
  split at h
  · exact .inl (Except.error.inj h).symm
  · have hmem : comparison depthLimit (unary depthLimit depthLimit)
        ∈ treeReaders (unary depthLimit depthLimit) := by simp [treeReaders]
    refine .inr ⟨_, .tree source.toList hmem, ?_⟩
    generalize comparison depthLimit (unary depthLimit depthLimit) source.toList = o at h ⊢
    cases o with
    | done tree rest =>
      cases rest with
      | nil => cases h
      | cons c rest =>
        cases h
        exact ⟨rfl, fun _ _ he => ⟨rest, by cases he; rfl⟩, nofun⟩
    | unexpected rest =>
      cases rest with
      | nil =>
        cases h
        exact ⟨rfl, nofun, fun _ _ => rfl⟩
      | cons c rest =>
        cases h
        exact ⟨rfl, fun _ _ he => ⟨rest, by cases he; rfl⟩, nofun⟩
    | tooDeep rest =>
      cases h
      exact ⟨rfl, nofun, nofun⟩

/-- The offset of a syntax error is a position in the source. A character that the complaint
names stands there, and where the source is said to end it does. All texts that readers hand
on while the source is read are suffixes of it, so that none is longer, and an offset is the
difference to the length of one of them. -/
theorem parse_offsets (source : String) :
    (∀ e, parse source = .error e →
      e.offset ≤ source.utf8ByteSize ∧
      ∃ p : source.Pos, p.offset.byteIdx = e.offset ∧
        (∀ c, e.complaint = "unexpected '" ++ c.toString ++ "'" → ∃ h, p.get h = c) ∧
        (e.complaint = "unexpected end of input" → e.offset = source.utf8ByteSize) ∧
        (e ≠ .empty → ∃ rest, ReflTransGen HandsOn source.toList rest ∧
          e.offset + byteLength rest = source.utf8ByteSize)) ∧
    ∀ s, ReflTransGen HandsOn source.toList s →
      s <:+ source.toList ∧ byteLength s ≤ source.utf8ByteSize := by
  have hlength : ∀ {front s : List Char}, front ++ s = source.toList →
      byteLength front + byteLength s = source.utf8ByteSize := by
    intro front s h
    rw [← byteLength_append, h, byteLength_toList]
  refine ⟨fun e he => ?_, fun s hs => ?_⟩
  · rcases exists_rest_of_parse he with rfl | ⟨rest, hrest, hoffset, hfound, hend⟩
    · refine ⟨Nat.zero_le _, source.startPos, rfl, fun c hc => ?_, fun hc => ?_,
        fun h => absurd rfl h⟩
      · obtain ⟨n, hn⟩ := SyntaxError.complaint_eq_unexpected hc
        cases hn
      · obtain ⟨n, hn⟩ := SyntaxError.complaint_eq_endOfInput hc
        cases hn
    · obtain ⟨front, hfront⟩ := hrest.suffix
      have hsum := hlength hfront
      rw [byteLength_sub hfront] at hoffset
      obtain ⟨p, hp⟩ := exists_splits hfront
      have hpos : p.offset.byteIdx = e.offset := by
        rw [hp.offset_eq_rawEndPos, String.byteIdx_rawEndPos, utf8ByteSize_ofList, hoffset]
      refine ⟨by omega, p, hpos, fun c hc => ?_, fun hc => ?_,
        fun _ => ⟨rest, .single hrest, by rw [hoffset, hsum]⟩⟩
      · obtain ⟨n, hn⟩ := SyntaxError.complaint_eq_unexpected hc
        obtain ⟨t, rfl⟩ := hfound c n hn
        rw [String.ofList_cons] at hp
        exact ⟨hp.ne_endPos_of_singleton, String.Pos.Splits.get_eq_of_singleton hp.next⟩
      · obtain ⟨n, hn⟩ := SyntaxError.complaint_eq_endOfInput hc
        rw [hend n hn] at hsum
        rw [hoffset, ← hsum]
        rfl
  · obtain ⟨front, hfront⟩ := suffix_of_handsOn hs
    exact ⟨suffix_of_handsOn hs, Nat.le.intro ((Nat.add_comm _ _).trans (hlength hfront))⟩

end SpellText.Expr
