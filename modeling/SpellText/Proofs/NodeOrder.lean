import SpellText.Proofs.Skips

/-!
# The node that decides

An expression is evaluated node by node, operands before their operation and from left to
right (`Expr.nodes`). Its fault is that of the first node in this order that has one
(`Expr.evaluate_eq_error_iff`), and where no node has one the expression has an amount
(`Expr.exists_evaluate_eq_ok_iff`). A node has a fault because a lookup or the arithmetic at it
goes wrong (`Expr.Stumbles`), or because it has no amount whatever its operands come to
(`Expr.isUnsupported`).

Simple expressions are those without a node of the latter kind (`Expr.isSimple_iff`). So only
they have amounts, and of the others evaluation names the first such node unless something
goes wrong before it : `Expr.evaluate_supported`.
-/

namespace SpellText.Expr

open Formula (Lookup)

/-! ## Nodes in order -/

/-- The nodes in the order in which they are evaluated. The arguments of calls are
not evaluated. -/
def nodes : Expr → List Expr
  | number x => [number x]
  | name s => [name s]
  | signed sign e => e.nodes ++ [signed sign e]
  | binary op l r => l.nodes ++ r.nodes ++ [binary op l r]
  | call f args => [call f args]

/-- The node has no amount whatever its operands come to. -/
def isUnsupported : Expr → Bool
  | binary op _ _ => !op.isArithmetic
  | call _ _ => true
  | _ => false

/-- The first node that has no amount whatever its operands come to. -/
def firstUnsupported? (e : Expr) : Option Expr := e.nodes.find? isUnsupported

/-- The nodes before the first one that has no amount whatever its operands come to. -/
def nodesBefore (e : Expr) : List Expr := e.nodes.takeWhile (!·.isUnsupported)

/-- A lookup goes wrong at the node, or the arithmetic on the amounts of its operands. -/
inductive Stumbles (lookup : Lookup) : Expr → Fault → Prop
  | name {s : String} {f : Fault} (h : lookup s = .error f) : Stumbles lookup (name s) f
  | arithmetic {op : Op} {l r : Expr} {a b : Amount} {f : Fault}
    (hl : l.evaluate lookup = .ok a) (hr : r.evaluate lookup = .ok b)
    (h : op.result? a b = some (.error f)) : Stumbles lookup (binary op l r) f

/-- The fault of a node, those of its operands left aside. -/
inductive HasFault (lookup : Lookup) : Expr → Fault → Prop
  | stumbles {e : Expr} {f : Fault} (h : Stumbles lookup e f) : HasFault lookup e f
  | unsupported {e : Expr} (h : e.isUnsupported = true) :
    HasFault lookup e (.unsupportedExpression e.describe)

/-- No node has a fault. -/
def AreFaultless (lookup : Lookup) (ns : List Expr) : Prop :=
  ∀ n ∈ ns, ∀ f, ¬ HasFault lookup n f

/-- The first node with a fault has the fault `f`. -/
def IsFirstFault (lookup : Lookup) (ns : List Expr) (f : Fault) : Prop :=
  ∃ before n behind, ns = before ++ n :: behind ∧ AreFaultless lookup before ∧
    HasFault lookup n f

/-- A simple expression has no node without an amount of its own. -/
theorem isSimple_iff : ∀ {e : Expr}, e.isSimple = true ↔ ∀ n ∈ e.nodes, n.isUnsupported = false
  | number _ => by simp [isSimple, nodes, isUnsupported]
  | name _ => by simp [isSimple, nodes, isUnsupported]
  | signed _ e => by
    rw [isSimple, isSimple_iff, nodes, List.forall_mem_append, List.forall_mem_singleton]
    exact (and_iff_left rfl).symm
  | binary op l r => by
    rw [isSimple, Bool.and_eq_true, Bool.and_eq_true, isSimple_iff, isSimple_iff, nodes,
      List.forall_mem_append, List.forall_mem_append, List.forall_mem_singleton, isUnsupported,
      Bool.not_eq_false', and_assoc, and_comm, and_assoc]
  | call _ _ => by simp [isSimple, nodes, isUnsupported]

section

variable {lookup : Lookup}

/-! ## First faults -/

theorem areFaultless_cons {n : Expr} {ns : List Expr} : AreFaultless lookup (n :: ns) ↔
    (∀ f, ¬ HasFault lookup n f) ∧ AreFaultless lookup ns :=
  List.forall_mem_cons

theorem areFaultless_append {xs ys : List Expr} : AreFaultless lookup (xs ++ ys) ↔
    AreFaultless lookup xs ∧ AreFaultless lookup ys :=
  List.forall_mem_append

/-- The first fault is that of the first node, or of the others if that has none. -/
theorem isFirstFault_cons {n : Expr} {ns : List Expr} {f : Fault} :
    IsFirstFault lookup (n :: ns) f ↔
      HasFault lookup n f ∨ (∀ g, ¬ HasFault lookup n g) ∧ IsFirstFault lookup ns f := by
  constructor
  · rintro ⟨_ | ⟨m, before⟩, k, behind, hns, hok, hf⟩
    · obtain ⟨rfl, -⟩ := List.cons.inj hns
      exact .inl hf
    · obtain ⟨rfl, rfl⟩ := List.cons.inj hns
      obtain ⟨hm, hok⟩ := areFaultless_cons.1 hok
      exact .inr ⟨hm, before, k, behind, rfl, hok, hf⟩
  · rintro (hf | ⟨hn, before, k, behind, rfl, hok, hf⟩)
    · exact ⟨[], n, ns, rfl, nofun, hf⟩
    · exact ⟨n :: before, k, behind, rfl, areFaultless_cons.2 ⟨hn, hok⟩, hf⟩

theorem not_isFirstFault_nil {f : Fault} : ¬ IsFirstFault lookup [] f := by
  rintro ⟨_ | ⟨_, _⟩, _, _, hns, -⟩ <;> cases hns

theorem isFirstFault_singleton {n : Expr} {f : Fault} :
    IsFirstFault lookup [n] f ↔ HasFault lookup n f := by
  rw [isFirstFault_cons]
  exact or_iff_left fun h => not_isFirstFault_nil h.2

/-- The first fault is on the left, or on the right of nodes without fault. -/
theorem isFirstFault_append {xs ys : List Expr} {f : Fault} :
    IsFirstFault lookup (xs ++ ys) f ↔
      IsFirstFault lookup xs f ∨ AreFaultless lookup xs ∧ IsFirstFault lookup ys f := by
  induction xs with
  | nil =>
    refine ⟨fun h => .inr ⟨nofun, h⟩, ?_⟩
    rintro (h | ⟨-, h⟩)
    · exact absurd h not_isFirstFault_nil
    · exact h
  | cons x xs ih =>
    rw [List.cons_append, isFirstFault_cons, ih, isFirstFault_cons, areFaultless_cons,
      and_or_left, or_assoc, and_assoc]

/-- Nodes are without fault, or there is a first one with a fault. -/
theorem areFaultless_or_exists (lookup : Lookup) (ns : List Expr) :
    AreFaultless lookup ns ∨ ∃ f, IsFirstFault lookup ns f := by
  induction ns with
  | nil => exact .inl nofun
  | cons n ns ih =>
    simp only [isFirstFault_cons, areFaultless_cons]
    by_cases hn : ∃ f, HasFault lookup n f
    · obtain ⟨f, hf⟩ := hn
      exact .inr ⟨f, .inl hf⟩
    · have hn := not_exists.1 hn
      rcases ih with h | ⟨f, hf⟩
      · exact .inl ⟨hn, h⟩
      · exact .inr ⟨f, .inr ⟨hn, hf⟩⟩

/-- Where there is a first fault the nodes are not without fault. -/
theorem IsFirstFault.not_areFaultless {ns : List Expr} {f : Fault}
    (h : IsFirstFault lookup ns f) : ¬ AreFaultless lookup ns := by
  obtain ⟨before, n, behind, rfl, -, hf⟩ := h
  exact fun hno => hno n (List.mem_append_right _ List.mem_cons_self) f hf

/-- A step that fails with the first fault succeeds if there is none. -/
theorem exists_eq_ok_iff_areFaultless {α : Type} {x : Except Fault α} {ns : List Expr}
    (h : ∀ f, x = .error f ↔ IsFirstFault lookup ns f) :
    (∃ a, x = .ok a) ↔ AreFaultless lookup ns := by
  constructor
  · rintro ⟨a, rfl⟩
    rcases areFaultless_or_exists lookup ns with hno | ⟨f, hf⟩
    · exact hno
    · cases (h f).2 hf
  · intro hno
    cases x with
    | ok a => exact ⟨a, rfl⟩
    | error f => exact absurd hno ((h f).1 rfl).not_areFaultless

/-! ## Evaluation -/

theorem hasFault_name_iff {s : String} {f : Fault} :
    HasFault lookup (name s) f ↔ lookup s = .error f := by
  constructor
  · rintro (⟨⟨h⟩⟩ | h)
    · exact h
    · cases h
  · exact fun h => .stumbles (.name h)

/-- The four basic operations have a result. -/
theorem Op.isSome_result? (op : Op) (a b : Amount) : (op.result? a b).isSome = op.isArithmetic := by
  cases op <;> rfl

/-- The fault of an operation whose operands have amounts is that of its result. -/
theorem hasFault_binary_iff {op : Op} {l r : Expr} {a b : Amount} {f : Fault}
    (hl : l.evaluate lookup = .ok a) (hr : r.evaluate lookup = .ok b) :
    HasFault lookup (binary op l r) f ↔
      (op.result? a b).getD (.error (.unsupportedExpression (binary op l r).describe))
        = .error f := by
  have hop := op.isSome_result? a b
  constructor
  · rintro (⟨_ | ⟨hl', hr', h⟩⟩ | hu)
    · cases hl.symm.trans hl'
      cases hr.symm.trans hr'
      rw [h, Option.getD_some]
    · rw [isUnsupported, ← hop, Bool.not_eq_true', Option.isSome_eq_false_iff,
        Option.isNone_iff_eq_none] at hu
      rw [hu, Option.getD_none]
  · intro h
    cases hres : op.result? a b with
    | some result =>
      rw [hres, Option.getD_some] at h
      exact .stumbles (.arithmetic hl hr (h ▸ hres))
    | none =>
      rw [hres, Option.getD_none] at h
      rw [hres] at hop
      cases h
      exact .unsupported (by rw [isUnsupported, ← hop]; rfl)

/-- The fault of an expression is that of the first node with a fault. -/
theorem evaluate_eq_error_iff : ∀ {e : Expr} {f : Fault},
    e.evaluate lookup = .error f ↔ IsFirstFault lookup e.nodes f
  | number _, f => by
    rw [nodes, isFirstFault_singleton]
    refine iff_of_false nofun ?_
    rintro (⟨⟨⟩⟩ | ⟨⟨⟩⟩)
  | name s, f => by
    rw [nodes, isFirstFault_singleton, hasFault_name_iff, evaluate]
  | signed sign e, f => by
    have hsigned : ¬ HasFault lookup (signed sign e) f := by
      rintro (⟨⟨⟩⟩ | ⟨⟨⟩⟩)
    rw [nodes, isFirstFault_append, isFirstFault_singleton, ← evaluate_eq_error_iff, evaluate,
      bind_eq_error]
    exact or_congr_right (iff_of_false (fun ⟨_, _, h⟩ => nomatch h) fun h => hsigned h.2)
  | binary op l r, f => by
    have hl := exists_eq_ok_iff_areFaultless fun f => evaluate_eq_error_iff (e := l) (f := f)
    have hr := exists_eq_ok_iff_areFaultless fun f => evaluate_eq_error_iff (e := r) (f := f)
    rw [nodes, isFirstFault_append, isFirstFault_append, isFirstFault_singleton,
      areFaultless_append, ← hl, ← hr, ← evaluate_eq_error_iff, ← evaluate_eq_error_iff, evaluate]
    cases hle : l.evaluate lookup with
    | error g => simp [bind, Except.bind]
    | ok a =>
      cases hre : r.evaluate lookup with
      | error g => simp [bind, Except.bind]
      | ok b => simp [bind, Except.bind, hasFault_binary_iff hle hre]
  | call g args, f => by
    rw [nodes, isFirstFault_singleton, evaluate]
    constructor
    · rintro ⟨⟩
      exact .unsupported rfl
    · rintro (⟨⟨⟩⟩ | _)
      rfl

/-- An expression has an amount if and only if no node has a fault. -/
theorem exists_evaluate_eq_ok_iff {e : Expr} :
    (∃ a, e.evaluate lookup = .ok a) ↔ AreFaultless lookup e.nodes :=
  exists_eq_ok_iff_areFaultless fun _ => evaluate_eq_error_iff

/-! ## Nodes without an amount of their own -/

/-- Lookups and arithmetic do not blame a node. -/
theorem HasFault.isUnsupported (hl : ∀ s d, lookup s ≠ .error (.unsupportedExpression d))
    {e : Expr} {d : String} (h : HasFault lookup e (.unsupportedExpression d)) :
    e.isUnsupported = true := by
  rcases h with ⟨h | @⟨op, _, _, a, b, _, _, _, h⟩⟩ | h
  · exact absurd h (hl _ _)
  · have hop : op.isArithmetic = true := by
      rw [← op.isSome_result? a b, h]
      rfl
    obtain ⟨result, hresult, hspares⟩ := op.exists_result hop a b
    cases hspares _ (Option.some.inj (hresult.symm.trans h))
  · exact h

/-- No node without fault is unsupported. -/
theorem AreFaultless.isUnsupported {ns : List Expr} (h : AreFaultless lookup ns) :
    ∀ n ∈ ns, n.isUnsupported = false :=
  fun n hn => Bool.eq_false_iff.2 fun hu => h n hn _ (.unsupported hu)

/-- Where the nodes are cut at one without an amount of its own, and none is before it, the
cut is at the first such node. -/
theorem firstUnsupported?_of_nodes {e n : Expr} {before behind : List Expr}
    (h : e.nodes = before ++ n :: behind) (hb : ∀ m ∈ before, m.isUnsupported = false)
    (hn : n.isUnsupported = true) : e.firstUnsupported? = some n ∧ e.nodesBefore = before := by
  have hb' : ∀ m ∈ before, (!m.isUnsupported) = true := fun m hm => by rw [hb m hm]; rfl
  refine ⟨List.find?_eq_some_iff_append.2 ⟨hn, before, behind, h, hb'⟩, ?_⟩
  rw [nodesBefore, h, List.takeWhile_append_of_pos hb', List.takeWhile_cons_of_neg (by simp [hn]),
    List.append_nil]

/-- An expression that is not simple can be cut at its first node without an amount. -/
theorem exists_nodes_eq {e : Expr} (h : e.isSimple = false) : ∃ before n behind,
    e.nodes = before ++ n :: behind ∧ (∀ m ∈ before, m.isUnsupported = false) ∧
      n.isUnsupported = true := by
  cases hfirst : e.nodes.find? isUnsupported with
  | none =>
    have hall : ∀ n ∈ e.nodes, n.isUnsupported = false :=
      fun n hn => Bool.eq_false_iff.2 (List.find?_eq_none.1 hfirst n hn)
    cases h.symm.trans (isSimple_iff.2 hall)
  | some n =>
    obtain ⟨hn, before, behind, hns, hb⟩ := List.find?_eq_some_iff_append.1 hfirst
    exact ⟨before, n, behind, hns, fun m hm => by simpa using hb m hm, hn⟩

/-- Only simple expressions have an amount, and only others are refused as unsupported. The
first node without an amount of its own is named if and only if no lookup and no arithmetic
goes wrong at a node before it. -/
theorem evaluate_supported (hl : ∀ s d, lookup s ≠ .error (.unsupportedExpression d)) (e : Expr) :
    (∀ a, e.evaluate lookup = .ok a → e.isSimple = true) ∧
      (e.isSimple = true → ∀ d, e.evaluate lookup ≠ .error (.unsupportedExpression d)) ∧
      (e.isSimple = false → ∃ n, e.firstUnsupported? = some n ∧
        ((∀ m ∈ e.nodesBefore, ∀ f, ¬ Stumbles lookup m f) ↔
          e.evaluate lookup = .error (.unsupportedExpression n.describe))) := by
  refine ⟨fun a ha => ?_, fun hs d hd => ?_, fun hs => ?_⟩
  · exact isSimple_iff.2 (exists_evaluate_eq_ok_iff.1 ⟨a, ha⟩).isUnsupported
  · obtain ⟨before, n, behind, hns, -, hf⟩ := evaluate_eq_error_iff.1 hd
    have hn : n ∈ e.nodes := hns ▸ List.mem_append_right _ List.mem_cons_self
    cases (isSimple_iff.1 hs n hn).symm.trans (hf.isUnsupported hl)
  · obtain ⟨before, n, behind, hns, hb, hn⟩ := exists_nodes_eq hs
    obtain ⟨hfirst, hbefore⟩ := firstUnsupported?_of_nodes hns hb hn
    refine ⟨n, hfirst, fun hno => ?_, fun he => ?_⟩
    · rw [hbefore] at hno
      refine evaluate_eq_error_iff.2 ⟨before, n, behind, hns, fun m hm f hf => ?_, .unsupported hn⟩
      rcases hf with hf | hu
      · exact hno m hm f hf
      · cases (hb m hm).symm.trans hu
    · obtain ⟨before', n', behind', hns', hok, hf⟩ := evaluate_eq_error_iff.1 he
      rw [(firstUnsupported?_of_nodes hns' hok.isUnsupported (hf.isUnsupported hl)).2]
      exact fun m hm f hf => hok m hm f (.stumbles hf)

end

/-- Two ranks under one name, and nothing under any other. -/
def lonelyLookup (s : String) : Except Fault Amount :=
  if s = "e1" then .ok (.ofRanks [10.0, 20.0]) else .error (.unknownPlaceholder s "test")

/-- A remainder whose right operand is a call with a name that nothing stands under. -/
def remainderOfCall : Expr :=
  binary .rem (binary .mul (name "e1") (number 2.0)) (call "max" [name "e2"])

theorem evaluate_supported_remainder :
    (∀ s d, lonelyLookup s ≠ .error (.unsupportedExpression d)) ∧
      remainderOfCall.isSimple = false ∧
      remainderOfCall.evaluate lonelyLookup
        = .error (.unsupportedExpression "call max() with 1 args") := by
  have hl : ∀ s d, lonelyLookup s ≠ .error (.unsupportedExpression d) := by
    intro s d h
    unfold lonelyLookup at h
    split at h <;> cases h
  obtain ⟨-, -, hnot⟩ := evaluate_supported hl remainderOfCall
  obtain ⟨n, hn, hiff⟩ := hnot rfl
  obtain rfl : call "max" [name "e2"] = n := Option.some.inj hn
  have hleft : AreFaultless lonelyLookup (binary .mul (name "e1") (number 2.0)).nodes :=
    exists_evaluate_eq_ok_iff.1 ⟨_, rfl⟩
  exact ⟨hl, rfl, hiff.1 fun m hm f hf => hleft m hm f (.stumbles hf)⟩

end SpellText.Expr
