import SpellText.Proofs.Grammar.Tokens

/-!
# What readers accept

A reader that gives a tree has taken a phrase of its level off the text, whose
expression is the tree (`Takes`). The tree is no higher than the limit, and the
phrase stays within the depth that the reader was called with.

The readers call each other as the levels of the grammar do. Whoever reads the
operands is a parameter of theirs, so that each is dealt with on its own, and
`takes_unary` ties the knot by induction on the depth.
-/

namespace SpellText.Expr

/-- What the reader takes off the text is a phrase of the level, not higher than
the limit and within the depth. -/
def Takes (limit depth : Nat) (l : Level) (read : Reader) : Prop :=
  ∀ {s : List Char} {e : Expr} {rest : List Char}, read s = .done e rest →
    ∃ p c, s = p ++ rest ∧ Derives l p c ∧ c.expr = e ∧ c.reach < depth ∧ e.height ≤ limit

variable {limit depth : Nat}

/-! ## Chains -/

/-- What a chain goes on with derives, by induction on its rounds. -/
theorem takes_chainRest {l l' : Level} {op? : List Char → Option (Op × List Char)} {read : Reader}
    (hop : TakesOp l op?) (hl : l ≠ .power) (hr : Takes limit depth l' read) :
    ∀ {rounds : Nat} {c : Phrase} {s : List Char} {e : Expr} {rest : List Char},
      c.reach < depth → c.expr.height ≤ limit →
        chainRest limit op? read rounds c.expr s = .done e rest →
          ∃ p c', s = p ++ rest ∧ Continues l l' c p c' ∧ c'.expr = e ∧ c'.reach < depth ∧
            e.height ≤ limit := by
  intro rounds
  induction rounds with
  | zero =>
    intro c s e rest hc hh h
    cases h
    exact ⟨[], c, rfl, .nil, rfl, hc, hh⟩
  | succ rounds ih =>
    intro c s e rest hc hh h
    unfold chainRest at h
    split at h
    · cases h
      exact ⟨[], c, rfl, .nil, rfl, hc, hh⟩
    · next op next hs =>
      obtain ⟨hlev, o, ho, rfl⟩ := hop hs
      obtain ⟨right, behind, hright, h⟩ := Outcome.andThen_eq_done.1 h
      obtain ⟨p, d, rfl, hd, rfl, hdepth, -⟩ := hr hright
      obtain ⟨_, _, hg, h⟩ := Outcome.andThen_eq_done.1 h
      obtain ⟨hheight, rfl, rfl⟩ := grown_eq_done.1 hg
      have hne : op ≠ .pow := by
        rintro rfl
        exact hl hlev.symm
      have hreach : (Phrase.binary op c d).reach < depth := by
        rw [Phrase.reach_binary hne]
        omega
      obtain ⟨p', c', rfl, hcont, rfl, hc', hh'⟩ := ih (c := .binary op c d) hreach hheight h
      exact ⟨o ++ (p ++ p'), c', by simp, .cons hlev ho hd hcont, rfl, hc', hh'⟩

/-- A chain takes what derives at its level if its operands do below. -/
theorem takes_chain {l l' : Level} {op? : List Char → Option (Op × List Char)} {read : Reader}
    (hop : TakesOp l op?) (hl : l.operand? = some l') (hr : Takes limit depth l' read) :
    Takes limit depth l (chain limit op? read) := by
  intro s e rest h
  obtain ⟨left, behind, hleft, h⟩ := Outcome.andThen_eq_done.1 h
  obtain ⟨p, c, rfl, hc, rfl, hdepth, hheight⟩ := hr hleft
  have hne : l ≠ .power := by
    rintro rfl
    cases hl
  obtain ⟨p', c', rfl, hcont, rfl, hc', hh'⟩ := takes_chainRest hop hne hr hdepth hheight h
  exact ⟨p ++ p', c', by simp, .chain hl hc hcont, rfl, hc', hh'⟩

theorem takes_comparison {read : Reader} (hr : Takes limit depth .unary read) :
    Takes limit depth .comparison (comparison limit read) :=
  takes_chain comparisonOp_sound rfl
    (takes_chain additiveOp_sound rfl (takes_chain termOp_sound rfl hr))

/-! ## Argument lists -/

/-- What arguments go on with derives, by induction on their rounds. -/
theorem takes_argumentsRest {argument : Reader} (hr : Takes limit depth .comparison argument) :
    ∀ {rounds : List Char} {done : List Expr} {s : List Char} {es : List Expr} {rest : List Char},
      argumentsRest argument rounds done s = .done es rest →
        ∃ p cs, s = p ++ rest ∧ Further p cs ∧ es = done.reverse ++ Phrase.exprs cs ∧
          ∀ c ∈ cs, c.reach < depth := by
  intro rounds
  induction rounds with
  | nil =>
    intro done s es rest h
    cases h
    exact ⟨[], [], rfl, .nil, (List.append_nil _).symm, nofun⟩
  | cons _ rounds ih =>
    intro done s es rest h
    have hnone : ∀ {es' : List Expr} {rest' : List Char},
        Outcome.done done.reverse s = .done es' rest' →
          ∃ p cs, s = p ++ rest' ∧ Further p cs ∧ es' = done.reverse ++ Phrase.exprs cs ∧
            ∀ c ∈ cs, c.reach < depth := by
      intro es' rest' h
      cases h
      exact ⟨[], [], rfl, .nil, (List.append_nil _).symm, nofun⟩
    unfold argumentsRest at h
    split at h
    · exact hnone h
    · next next hs =>
      split at h
      · next e behind he =>
        obtain ⟨o, ho, rfl⟩ := symbol_sound hs
        obtain ⟨p, c, rfl, hc, rfl, hdepth, -⟩ := hr he
        obtain ⟨p', cs, rfl, hcs, rfl, hdepths⟩ := ih h
        refine ⟨o ++ (p ++ p'), c :: cs, by simp, .cons ho hc hcs, by simp [Phrase.exprs], ?_⟩
        exact List.forall_mem_cons.2 ⟨hdepth, hdepths⟩
      · exact hnone h
      · cases h

/-- Arguments take what derives, each within the depth. -/
theorem takes_arguments {argument : Reader} (hr : Takes limit depth .comparison argument)
    {s : List Char} {es : List Expr} {rest : List Char}
    (h : arguments argument s = .done es rest) :
    ∃ p cs, s = p ++ rest ∧ Arguments p cs ∧ es = Phrase.exprs cs ∧ ∀ c ∈ cs, c.reach < depth := by
  unfold arguments at h
  split at h
  · next e behind he =>
    obtain ⟨p, c, rfl, hc, rfl, hdepth, -⟩ := hr he
    obtain ⟨p', cs, rfl, hcs, rfl, hdepths⟩ := takes_argumentsRest hr h
    refine ⟨p ++ p', c :: cs, by simp, .some hc hcs, by simp [Phrase.exprs], ?_⟩
    exact List.forall_mem_cons.2 ⟨hdepth, hdepths⟩
  · cases h
    exact ⟨[], [], rfl, .none, rfl, nofun⟩
  · cases h

/-- At the deepest level no argument list is read, not even an empty one. -/
theorem pos_of_arguments {s : List Char} {es : List Expr} {rest : List Char}
    (h : arguments (comparison limit (unary limit depth)) s = .done es rest) : 0 < depth := by
  cases depth with
  | zero => cases h
  | succ depth => exact Nat.succ_pos depth

theorem Phrase.reachOfArgs_lt (hd : 0 < depth) : ∀ {cs : List Phrase},
    (∀ c ∈ cs, c.reach < depth) → reachOfArgs cs < depth
  | [], _ => hd
  | c :: cs, h => by
    obtain ⟨hc, hcs⟩ := List.forall_mem_cons.1 h
    rw [reachOfArgs_cons]
    exact Nat.max_lt.2 ⟨hc, reachOfArgs_lt hd hcs⟩

/-! ## Operands -/

section

variable (hlim : 0 < limit) (hr : Takes limit depth .unary (unary limit depth))
include hlim hr

/-- A name or a call takes what derives as an operand without signs. -/
theorem takes_nameOrCall :
    Takes limit (depth + 1) .primary (nameOrCall limit (unary limit depth)) := by
  intro s e rest h
  unfold nameOrCall at h
  split at h
  · cases h
  · next f behind hf =>
    obtain ⟨t, o, rfl, ht, ho, rfl⟩ := name_sound hf
    have hname : Derives .primary o (.name (String.ofList t)) := .name ht ho
    split at h
    · cases h
      exact ⟨o, _, rfl, hname, rfl, Nat.succ_pos _, hlim⟩
    · next inside hi =>
      obtain ⟨args, afterArgs, hargs, h⟩ := Outcome.andThen_eq_done.1 h
      split at h
      · cases h
        exact ⟨o, _, rfl, hname, rfl, Nat.succ_pos _, hlim⟩
      · next behind' hb =>
        obtain ⟨hheight, rfl, rfl⟩ := grown_eq_done.1 h
        obtain ⟨o₁, ho₁, rfl⟩ := symbol_sound hi
        obtain ⟨p, cs, rfl, hcs, rfl, hdepths⟩ := takes_arguments (takes_comparison hr) hargs
        obtain ⟨o₂, ho₂, rfl⟩ := symbol_sound hb
        refine ⟨o ++ (o₁ ++ (p ++ o₂)), _, by simp, .call ht ho ho₁ hcs ho₂, rfl, ?_, hheight⟩
        rw [Phrase.reach_call]
        exact Nat.succ_lt_succ (Phrase.reachOfArgs_lt (pos_of_arguments hargs) hdepths)

/-- An operand without signs takes what derives as one. -/
theorem takes_primary : Takes limit (depth + 1) .primary (primary limit (unary limit depth)) := by
  intro s e rest h
  unfold primary at h
  split at h
  · next inside hi =>
    obtain ⟨inner, behind, hinner, h⟩ := Outcome.andThen_eq_done.1 h
    split at h
    · next behind' hb =>
      cases h
      obtain ⟨o₁, ho₁, rfl⟩ := symbol_sound hi
      obtain ⟨p, c, rfl, hc, rfl, hdepth, hheight⟩ := takes_comparison hr hinner
      obtain ⟨o₂, ho₂, rfl⟩ := symbol_sound hb
      exact ⟨o₁ ++ (p ++ o₂), _, by simp, .parens ho₁ hc ho₂, rfl, Nat.succ_lt_succ hdepth, hheight⟩
    · cases h
  · split at h
    · next hn =>
      cases h
      obtain ⟨x, t, o, rfl, ht, hx, ho, rfl⟩ := number_sound hn
      exact ⟨o, _, rfl, .number ht hx ho, rfl, Nat.succ_pos _, hlim⟩
    · exact takes_nameOrCall hlim hr h

/-- A power takes what derives as one. -/
theorem takes_power : Takes limit (depth + 1) .power (power limit (unary limit depth)) := by
  intro s e rest h
  obtain ⟨base, behind, hbase, h⟩ := Outcome.andThen_eq_done.1 h
  obtain ⟨p, c, rfl, hc, rfl, hdepth, hheight⟩ := takes_primary hlim hr hbase
  split at h
  · cases h
    exact ⟨p, c, rfl, .base hc, rfl, hdepth, hheight⟩
  · next next hs =>
    obtain ⟨o, ho, rfl⟩ := powerSign_sound hs
    obtain ⟨exponent, behind', hexp, h⟩ := Outcome.andThen_eq_done.1 h
    obtain ⟨p', c', rfl, hc', rfl, hdepth', -⟩ := hr hexp
    obtain ⟨hheight', rfl, rfl⟩ := grown_eq_done.1 h
    refine ⟨p ++ (o ++ p'), _, by simp, .power hc ho hc', rfl, ?_, hheight'⟩
    rw [Phrase.reach_pow]
    omega

end

/-- An operand that is read is an operand of the grammar. -/
theorem takes_unary (hlim : 0 < limit) :
    ∀ {depth : Nat}, Takes limit depth .unary (unary limit depth) := by
  intro depth
  induction depth with
  | zero =>
    intro s e rest h
    cases h
  | succ depth ih =>
    intro s e rest h
    unfold unary at h
    split at h
    · next sign next hs =>
      obtain ⟨o, ho, rfl⟩ := sign_sound hs
      obtain ⟨operand, behind, hop, h⟩ := Outcome.andThen_eq_done.1 h
      obtain ⟨p, c, rfl, hc, rfl, hdepth, -⟩ := ih hop
      obtain ⟨hheight, rfl, rfl⟩ := grown_eq_done.1 h
      exact ⟨o ++ p, _, by simp, .signed ho hc, rfl, Nat.succ_lt_succ hdepth, hheight⟩
    · obtain ⟨p, c, rfl, hc, rfl, hdepth, hheight⟩ := takes_power hlim ih h
      exact ⟨p, c, rfl, .unsigned hc, rfl, hdepth, hheight⟩

end SpellText.Expr
