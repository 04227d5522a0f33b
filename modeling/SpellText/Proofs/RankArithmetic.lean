import SpellText.Amount.Basic

/-!
# Arithmetic by rank

Amounts are added, multiplied and filled up term by term, and the terms may have
different numbers of coefficients. `Amount.arithmetic_rankwise` says what comes out at
every rank, also behind the last coefficient : sums and differences are those of the
coefficients at the rank (`IsCombined`), a sign, a factor and a divisor act on each
coefficient (`IsMapped`), and filling up changes nothing but the number of
coefficients (`IsPadded`).

A sum adds the terms of its right operand one after the other. What one term does is
in `labels_addTerm`, `term?_addTerm_self` and `term?_addTerm_of_ne`; the lemmas on
`addTerms` carry it through all of them.
-/

namespace SpellText

/-! ## Coefficients -/

namespace Ranks

/-- The coefficient at a rank is the one at that place, or the last one. -/
theorem atRank_eq (cs : List Float) (j : Nat) :
    atRank cs j = cs[min j (cs.length - 1)]?.getD 0.0 := by
  rw [atRank, last, List.getLast?_eq_getElem?]
  rcases Nat.lt_or_ge j cs.length with h | h
  · rw [Nat.min_eq_left (by omega), List.getElem?_eq_getElem h]
    rfl
  · rw [Nat.min_eq_right (by omega), List.getElem?_eq_none h]
    rfl

theorem atRank_nil (j : Nat) : atRank [] j = 0.0 := rfl

/-- Coefficients of as many ranks are added one by one. -/
theorem atRank_zipWith {xs ys : List Float} (h : xs.length = ys.length) (j : Nat) :
    atRank (List.zipWith (· + ·) xs ys) j = atRank xs j + atRank ys j := by
  rcases Nat.eq_zero_or_pos xs.length with h0 | h0
  · obtain rfl := List.eq_nil_of_length_eq_zero h0
    obtain rfl := List.eq_nil_of_length_eq_zero h.symm
    rw [List.zipWith_nil_left, atRank_nil]
    rfl
  · rw [atRank_eq, atRank_eq, atRank_eq, List.length_zipWith, ← h, Nat.min_self,
      List.getElem?_zipWith, List.getElem?_eq_getElem (by omega),
      List.getElem?_eq_getElem (by omega)]
    rfl

/-- A sum has the sum of the coefficients at every rank. -/
theorem atRank_add (xs ys : List Float) (j : Nat) :
    atRank (add xs ys) j = atRank xs j + atRank ys j := by
  have h : (extend (max xs.length ys.length) xs).length
      = (extend (max xs.length ys.length) ys).length := by
    rw [length_extend, length_extend]
    omega
  show atRank (List.zipWith (· + ·) (extend _ xs) (extend _ ys)) j = _
  rw [atRank_zipWith h, atRank_extend, atRank_extend]

theorem length_add (xs ys : List Float) : (add xs ys).length = max xs.length ys.length := by
  show (List.zipWith (· + ·) (extend _ xs) (extend _ ys)).length = _
  rw [List.length_zipWith, length_extend, length_extend]
  omega

/-- Filling up again to the same number of ranks adds nothing. -/
theorem extend_of_length_eq {n : Nat} {cs : List Float} (h : cs.length = n) : extend n cs = cs := by
  rw [extend, h, Nat.sub_self, List.replicate_zero, List.append_nil]

end Ranks

namespace Amount

open Ranks (atRank)

/-! ## What the operations are to do -/

/-- Under every label, `c` holds the sum of the coefficients of `a` and of those of
`b` multiplied by `sign`. -/
structure IsCombined (sign : Float) (a b c : Amount) : Prop where
  labels : c.labels = a.labels ++ b.labels.filter (· ∉ a.labels)
  distinct : c.labels.Nodup
  both : ∀ {label xs ys}, a.term? label = some xs → b.term? label = some ys →
    ∃ zs, c.term? label = some zs ∧
      ∀ j, atRank zs j = atRank xs j + atRank (ys.map (· * sign)) j
  left : ∀ {label}, label ∉ b.labels → c.term? label = a.term? label
  right : ∀ {label}, label ∉ a.labels →
    c.term? label = (b.term? label).map (List.map (· * sign))
  length : c.length = max a.length b.length

/-- `c` is `a` with `f` applied to every coefficient. -/
structure IsMapped (f : Float → Float) (a c : Amount) : Prop where
  labels : c.labels = a.labels
  terms : ∀ label, c.term? label = (a.term? label).map (List.map f)

/-- `c` is `a` with as many coefficients in every term as `a` has ranks. -/
structure IsPadded (a c : Amount) : Prop where
  labels : c.labels = a.labels
  length : c.length = a.length
  full : ∀ {label ys}, c.term? label = some ys → ys.length = a.length
  terms : ∀ {label xs}, a.term? label = some xs →
    ∃ ys, c.term? label = some ys ∧ ∀ j, atRank ys j = atRank xs j

/-! ## Changing every term -/

variable {a : Amount}

theorem labels_mapTerms (f : List Float → List Float) (a : Amount) :
    (a.mapTerms f).labels = a.labels :=
  Table.keys_map f a.terms

theorem term?_mapTerms (f : List Float → List Float) (a : Amount) (label : String) :
    (a.mapTerms f).term? label = (a.term? label).map f :=
  Table.get?_map f a.terms label

/-- A function of coefficients is applied at every label and rank. -/
theorem isMapped_map (f : Float → Float) (a : Amount) : IsMapped f a (a.map f) :=
  ⟨labels_mapTerms _ a, term?_mapTerms _ a⟩

/-- A single number on the right multiplies every coefficient on the left. -/
theorem isMapped_times_right {b : Amount} {x : Float} (h : b.scalar? = some x) (a : Amount) :
    ∃ c, a.times b = .ok c ∧ IsMapped (· * x) a c :=
  ⟨a.scale x, by rw [times, h], isMapped_map _ a⟩

/-- A single number on the left multiplies every coefficient on the right. -/
theorem isMapped_times_left {b : Amount} {x : Float} (h : a.scalar? = some x)
    (hb : b.scalar? = none) : ∃ c, a.times b = .ok c ∧ IsMapped (· * x) b c :=
  ⟨b.scale x, by rw [times, hb, h], isMapped_map _ b⟩

/-- A single number other than zero divides every coefficient. -/
theorem isMapped_dividedBy {b : Amount} {x : Float} (h : b.scalar? = some x)
    (hx : (x == 0.0) = false) (a : Amount) :
    ∃ c, a.dividedBy b = .ok c ∧ IsMapped (· / x) a c := by
  refine ⟨a.map (· / x), ?_, isMapped_map _ a⟩
  rw [dividedBy, h]
  simp [hx]

/-! ## The number of ranks -/

theorem foldr_max_le_iff {ns : List Nat} {n : Nat} :
    ns.foldr max 1 ≤ n ↔ 1 ≤ n ∧ ∀ m ∈ ns, m ≤ n := by
  induction ns with
  | nil => simp
  | cons m ns ih =>
    rw [List.foldr_cons, Nat.max_le, ih, List.forall_mem_cons]
    exact and_left_comm

/-- The number of coefficients under a label, which is zero where the label is missing. -/
def lengthAt (a : Amount) (label : String) : Nat := ((a.term? label).getD []).length

theorem lengthAt_of_term? {label : String} {cs : List Float} (h : a.term? label = some cs) :
    a.lengthAt label = cs.length := by
  rw [lengthAt, h, Option.getD_some]

/-- An amount has at most `n` ranks if no term has more coefficients. -/
theorem length_le_iff {n : Nat} : a.length ≤ n ↔ 1 ≤ n ∧ ∀ label, a.lengthAt label ≤ n := by
  rw [length, foldr_max_le_iff]
  refine and_congr_right fun _ => ⟨fun h label => ?_, fun h m hm => ?_⟩
  · cases hc : a.term? label with
    | none =>
      rw [lengthAt, hc]
      exact Nat.zero_le n
    | some cs =>
      rw [lengthAt_of_term? hc]
      exact h _ (List.mem_map_of_mem (f := fun e => e.2.length) (Table.mem_of_get? hc))
  · obtain ⟨e, he, rfl⟩ := List.mem_map.1 hm
    rw [← lengthAt_of_term? (Table.get?_eq_some_iff.2 he)]
    exact h e.1

theorem one_le_length (a : Amount) : 1 ≤ a.length := (length_le_iff.1 (Nat.le_refl _)).1

theorem lengthAt_le_length (a : Amount) (label : String) : a.lengthAt label ≤ a.length :=
  (length_le_iff.1 (Nat.le_refl _)).2 label

/-! ## Filling up -/

/-- A padded term is extended to the ranks of the amount. -/
theorem term?_padded {label : String} {cs : List Float} (h : a.term? label = some cs) :
    a.padded.term? label = some (Ranks.extend a.length cs) := by
  rw [padded, term?_mapTerms, h]
  rfl

theorem length_extend_term {label : String} {cs : List Float} (h : a.term? label = some cs) :
    (Ranks.extend a.length cs).length = a.length := by
  rw [Ranks.length_extend, ← lengthAt_of_term? h]
  exact Nat.max_eq_left (lengthAt_le_length a label)

/-- Every term of the filled-up amount has all ranks. -/
theorem length_term_padded {label : String} {ys : List Float}
    (h : a.padded.term? label = some ys) : ys.length = a.length := by
  rw [padded, term?_mapTerms] at h
  obtain ⟨xs, hx, rfl⟩ := Option.map_eq_some_iff.1 h
  exact length_extend_term hx

theorem length_padded (a : Amount) : a.padded.length = a.length := by
  have h : ∀ label, a.lengthAt label ≤ a.padded.lengthAt label ∧
      a.padded.lengthAt label ≤ a.length := fun label => by
    cases hc : a.term? label with
    | none => simp [lengthAt, padded, term?_mapTerms, hc]
    | some cs =>
      rw [lengthAt_of_term? (term?_padded hc), length_extend_term hc]
      exact ⟨lengthAt_le_length a label, Nat.le_refl _⟩
  refine Nat.le_antisymm (length_le_iff.2 ⟨one_le_length a, fun label => (h label).2⟩)
    (length_le_iff.2 ⟨one_le_length _, fun label => ?_⟩)
  exact Nat.le_trans (h label).1 (lengthAt_le_length _ label)

/-- Padding extends every term by its last coefficient. -/
theorem isPadded_padded (a : Amount) : IsPadded a a.padded where
  labels := labels_mapTerms _ a
  length := length_padded a
  full := length_term_padded
  terms h := ⟨_, term?_padded h, Ranks.atRank_extend a.length _⟩

/-- Filling up twice is filling up once. -/
theorem padded_padded (a : Amount) : a.padded.padded = a.padded := by
  have h : ∀ e ∈ a.padded.terms.entries, (e.1, Ranks.extend a.padded.length e.2) = e :=
    fun e he => Prod.ext rfl <| by
      rw [length_padded]
      exact Ranks.extend_of_length_eq (length_term_padded (Table.get?_eq_some_iff.2 he))
  exact congrArg Amount.mk (Table.ext ((List.map_congr_left h).trans (List.map_id' _)))

/-! ## Terms one by one -/

/-- What a term becomes when `cs` is added to it. -/
def grown (cs : List Float) : Option (List Float) → List Float
  | none => cs
  | some present => Ranks.add present cs

/-- A term is added to the one with its label. -/
theorem term?_addTerm_self (label : String) (cs : List Float) (a : Amount) :
    (a.addTerm label cs).term? label = some (grown cs (a.term? label)) := by
  rw [addTerm, term?, Table.get?_update_self]
  rfl

theorem term?_addTerm_of_ne {label other : String} (h : other ≠ label) (cs : List Float)
    (a : Amount) : (a.addTerm label cs).term? other = a.term? other :=
  Table.get?_update_of_ne a.terms h _

/-- A new label comes last. -/
theorem labels_addTerm (label : String) (cs : List Float) (a : Amount) :
    (a.addTerm label cs).labels = if label ∈ a.labels then a.labels else a.labels ++ [label] :=
  Table.keys_update a.terms label _

/-- Add terms one after the other, every coefficient multiplied by `sign`. -/
def addTerms (sign : Float) (a : Amount) (es : List (String × List Float)) : Amount :=
  es.foldl (fun sum e => sum.addTerm e.1 (e.2.map (· * sign))) a

/-- Labels that are new come behind the others. -/
theorem labels_addTerms (sign : Float) : ∀ {es : List (String × List Float)} (a : Amount),
    (es.map Prod.fst).Nodup →
      (a.addTerms sign es).labels = a.labels ++ (es.map Prod.fst).filter (· ∉ a.labels)
  | [], a, _ => by simp [addTerms]
  | (label, cs) :: es, a, h => by
    obtain ⟨hl, h⟩ := List.nodup_cons.1 h
    show ((a.addTerm label (cs.map (· * sign))).addTerms sign es).labels = _
    rw [labels_addTerms sign _ h, labels_addTerm]
    split
    · next hm => simp [hm]
    · next hm =>
      -- The label does not come again, so that later ones are as new as before.
      have hf : (es.map Prod.fst).filter (· ∉ a.labels ++ [label])
          = (es.map Prod.fst).filter (· ∉ a.labels) := by
        refine List.filter_congr fun l hl' => ?_
        have : l ≠ label := fun h' => hl (h' ▸ hl')
        simp [this]
      rw [hf]
      simp [hm]

/-- Under a label that is not added, the term stays. -/
theorem term?_addTerms_of_notMem (sign : Float) {label : String} :
    ∀ {es : List (String × List Float)} (a : Amount), label ∉ es.map Prod.fst →
      (a.addTerms sign es).term? label = a.term? label
  | [], _, _ => rfl
  | (l, ds) :: es, a, h => by
    obtain ⟨hne, h⟩ := not_or.1 fun h' => h (List.mem_cons.2 h')
    show ((a.addTerm l (ds.map (· * sign))).addTerms sign es).term? label = _
    rw [term?_addTerms_of_notMem sign _ h, term?_addTerm_of_ne hne]

/-- Under a label that is added, the term grows. -/
theorem term?_addTerms_of_get? (sign : Float) {label : String} {cs : List Float} :
    ∀ {es : List (String × List Float)} (a : Amount), (es.map Prod.fst).Nodup →
      Entries.get? label es = some cs →
        (a.addTerms sign es).term? label = some (grown (cs.map (· * sign)) (a.term? label))
  | [], _, _, hg => by cases hg
  | (l, ds) :: es, a, h, hg => by
    obtain ⟨hl, h⟩ := List.nodup_cons.1 h
    show ((a.addTerm l (ds.map (· * sign))).addTerms sign es).term? label = _
    rw [Entries.get?] at hg
    split at hg
    · next hll =>
      cases hg
      subst hll
      rw [term?_addTerms_of_notMem sign _ hl, term?_addTerm_self]
    · next hll =>
      rw [term?_addTerms_of_get? sign _ h hg, term?_addTerm_of_ne (Ne.symm hll)]

/-! ## Sums -/

variable {sign : Float} {b : Amount} {label : String}

theorem term?_combine_of_notMem (a : Amount) (h : label ∉ b.labels) :
    (combine sign a b).term? label = a.term? label :=
  term?_addTerms_of_notMem sign a h

/-- A term of the second amount is added with its sign. -/
theorem term?_combine_of_term? {cs : List Float} (a : Amount) (h : b.term? label = some cs) :
    (combine sign a b).term? label = some (grown (cs.map (· * sign)) (a.term? label)) :=
  term?_addTerms_of_get? sign a b.terms.distinct h

theorem term?_eq_none_iff : a.term? label = none ↔ label ∉ a.labels :=
  Table.get?_eq_none_iff

/-- Where the first amount has no term, there is that of the second with its sign. -/
theorem term?_combine_of_new (h : label ∉ a.labels) :
    (combine sign a b).term? label = (b.term? label).map (List.map (· * sign)) := by
  cases hb : b.term? label with
  | none => rw [term?_combine_of_notMem a (term?_eq_none_iff.1 hb), term?_eq_none_iff.2 h]; rfl
  | some cs => rw [term?_combine_of_term? a hb, term?_eq_none_iff.2 h]; rfl

/-- At each label a combination has as many ranks as the longer term. -/
theorem lengthAt_combine (sign : Float) (a b : Amount) (label : String) :
    (combine sign a b).lengthAt label = max (a.lengthAt label) (b.lengthAt label) := by
  cases hb : b.term? label with
  | none =>
    rw [lengthAt, term?_combine_of_notMem a (term?_eq_none_iff.1 hb), lengthAt, lengthAt, hb]
    exact (Nat.max_zero _).symm
  | some ys =>
    rw [lengthAt_of_term? (term?_combine_of_term? a hb), lengthAt_of_term? hb]
    cases ha : a.term? label with
    | none =>
      rw [grown, List.length_map, lengthAt, ha]
      exact (Nat.zero_max _).symm
    | some xs => rw [grown, Ranks.length_add, List.length_map, lengthAt_of_term? ha]

/-- A sum has as many ranks as the longer operand. -/
theorem length_combine (sign : Float) (a b : Amount) :
    (combine sign a b).length = max a.length b.length := by
  have h := lengthAt_combine sign a b
  refine Nat.le_antisymm (length_le_iff.2 ⟨?_, fun label => ?_⟩)
    (Nat.max_le.2 ⟨length_le_iff.2 ⟨one_le_length _, fun label => ?_⟩,
      length_le_iff.2 ⟨one_le_length _, fun label => ?_⟩⟩)
  · exact Nat.le_trans (one_le_length a) (Nat.le_max_left _ _)
  · have := lengthAt_le_length a label
    have := lengthAt_le_length b label
    rw [h]
    omega
  · exact Nat.le_trans (h label ▸ Nat.le_max_left _ _) (lengthAt_le_length _ label)
  · exact Nat.le_trans (h label ▸ Nat.le_max_right _ _) (lengthAt_le_length _ label)

/-- A sum or difference is taken at every label and rank. -/
theorem isCombined_combine (sign : Float) (a b : Amount) :
    IsCombined sign a b (combine sign a b) where
  labels := labels_addTerms sign a b.terms.distinct
  distinct := (combine sign a b).terms.distinct
  both ha hb := by
    refine ⟨_, term?_combine_of_term? a hb, fun j => ?_⟩
    rw [ha, grown, Ranks.atRank_add]
  left := term?_combine_of_notMem a
  right := term?_combine_of_new
  length := length_combine sign a b

/-- Sums and differences are formed rank by rank under every label, the labels of the
right operand behind those of the left one; a sign, a single number as factor and a
single number other than zero as divisor act on every coefficient; filling up keeps
all coefficients, and once is enough. -/
theorem arithmetic_rankwise (a b : Amount) :
    IsCombined 1.0 a b (a + b) ∧ IsCombined (-1.0) a b (a - b) ∧ IsMapped (fun x => -x) a (-a) ∧
      (∀ x, b.scalar? = some x → ∃ c, a.times b = .ok c ∧ IsMapped (· * x) a c) ∧
      (∀ x, a.scalar? = some x → b.scalar? = none →
        ∃ c, a.times b = .ok c ∧ IsMapped (· * x) b c) ∧
      (∀ x, b.scalar? = some x → (x == 0.0) = false →
        ∃ c, a.dividedBy b = .ok c ∧ IsMapped (· / x) a c) ∧
      IsPadded a a.padded ∧ a.padded.padded = a.padded :=
  ⟨isCombined_combine 1.0 a b, isCombined_combine (-1.0) a b, isMapped_map _ a,
    fun _ h => isMapped_times_right h a, fun _ => isMapped_times_left,
    fun _ h hx => isMapped_dividedBy h hx a, isPadded_padded a, padded_padded a⟩

theorem arithmetic_rankwise_two :
    (ofNumber 2.0).scalar? = some 2.0 ∧ (ofRanks [10.0, 20.0]).scalar? = none ∧
      ((2.0 : Float) == 0.0) = false ∧
      (∃ c, (ofRanks [10.0, 20.0]).times (ofNumber 2.0) = .ok c ∧
        IsMapped (· * 2.0) (ofRanks [10.0, 20.0]) c) ∧
      (∃ c, (ofNumber 2.0).times (ofRanks [10.0, 20.0]) = .ok c ∧
        IsMapped (· * 2.0) (ofRanks [10.0, 20.0]) c) ∧
      (∃ c, (ofRanks [10.0, 20.0]).dividedBy (ofNumber 2.0) = .ok c ∧
        IsMapped (· / 2.0) (ofRanks [10.0, 20.0]) c) := by
  obtain ⟨-, -, -, hr, -, hd, -⟩ := arithmetic_rankwise (ofRanks [10.0, 20.0]) (ofNumber 2.0)
  obtain ⟨-, -, -, -, hl, -⟩ := arithmetic_rankwise (ofNumber 2.0) (ofRanks [10.0, 20.0])
  have h : (ofNumber 2.0).scalar? = some 2.0 := rfl
  have h' : (ofRanks [10.0, 20.0]).scalar? = none := rfl
  have hz : ((2.0 : Float) == 0.0) = false := by decide
  exact ⟨h, h', hz, hr _ h, hl _ h h', hd _ h hz⟩

end Amount

end SpellText
