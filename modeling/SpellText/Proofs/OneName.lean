import SpellText.Expr.Evaluation
import SpellText.Proofs.Doubles
import SpellText.Proofs.RankArithmetic

/-!
# Expressions with one name

A text is calculated only if it is simple and has one name in it. Its amount then is
that of the plain arithmetic on single numbers, rank by rank (`valueAt`) : see
`Expr.evaluateText_rankwise`.

What stands beside the name has no name in it and comes to a single number, so that
every product and quotient has a single number on one side. `Amount` may ask for it on
the other side, and may add and multiply in another order than written; the laws in
`Doubles` say that this does not show. A quotient needs a single number below the line.
It has one if the name is not there, or if the name itself is a single number, and then
only a zero is a fault.

The induction is on the expression, in two steps : with single numbers under all names
(`evaluate_scalar`), and with several ranks under the one name (`evaluate_ranks`), where
the side without the name is a case of the first step.
-/

namespace SpellText

open Formula (Lookup)

/-! ## Flat amounts -/

namespace Ranks

theorem extend_singleton {n : Nat} (hn : 1 ≤ n) (y : Float) :
    extend n [y] = List.replicate n y := by
  cases n with
  | zero => cases hn
  | succ n => rfl

theorem zipWith_replicate (y : Float) : ∀ xs : List Float,
    List.zipWith (· + ·) xs (List.replicate xs.length y) = xs.map (· + y)
  | [] => rfl
  | x :: xs => congrArg ((x + y) :: ·) (zipWith_replicate y xs)

theorem replicate_zipWith (x : Float) : ∀ ys : List Float,
    List.zipWith (· + ·) (List.replicate ys.length x) ys = ys.map (x + ·)
  | [] => rfl
  | y :: ys => congrArg ((x + y) :: ·) (replicate_zipWith x ys)

/-- A single number on the right is added at every rank. -/
theorem add_singleton {xs : List Float} (h : xs ≠ []) (y : Float) :
    add xs [y] = xs.map (· + y) := by
  have hl : 1 ≤ xs.length := List.length_pos_iff.2 h
  have hn : max xs.length [y].length = xs.length := Nat.max_eq_left hl
  show List.zipWith (· + ·) (extend (max xs.length [y].length) xs)
    (extend (max xs.length [y].length) [y]) = _
  rw [hn, extend_of_length_eq rfl, extend_singleton hl, zipWith_replicate]

/-- A single number on the left is added at every rank. -/
theorem singleton_add {ys : List Float} (h : ys ≠ []) (x : Float) :
    add [x] ys = ys.map (x + ·) := by
  have hl : 1 ≤ ys.length := List.length_pos_iff.2 h
  have hn : max [x].length ys.length = ys.length := Nat.max_eq_right hl
  show List.zipWith (· + ·) (extend (max [x].length ys.length) [x])
    (extend (max [x].length ys.length) ys) = _
  rw [hn, extend_of_length_eq rfl, extend_singleton hl, replicate_zipWith]

end Ranks

namespace Amount

variable {vs : List Float}

/-- Where there are several ranks, there is no single number. -/
theorem scalar?_ofRanks (h : 2 ≤ vs.length) : (ofRanks vs).scalar? = none := by
  match vs, h with
  | _ :: _ :: _, _ => rfl

theorem scalar?_ofNumber (x : Float) : (ofNumber x).scalar? = some x := rfl

/-! ### A single number on the right -/

theorem add_ofNumber (h : vs ≠ []) (y : Float) :
    ofRanks vs + ofNumber y = ofRanks (vs.map (· + y)) := by
  show ofRanks (Ranks.add vs [y * 1.0]) = _
  rw [Doubles.mul_one, Ranks.add_singleton h]

theorem sub_ofNumber (h : vs ≠ []) (y : Float) :
    ofRanks vs - ofNumber y = ofRanks (vs.map (· - y)) := by
  show ofRanks (Ranks.add vs [y * -1.0]) = _
  rw [Ranks.add_singleton h]
  simp only [Doubles.add_mul_neg_one]

theorem times_ofNumber (vs : List Float) (y : Float) :
    (ofRanks vs).times (ofNumber y) = .ok (ofRanks (vs.map (· * y))) :=
  rfl

/-- Ranks are divided by a number each, unless it is zero. -/
theorem dividedBy_ofNumber (vs : List Float) (y : Float) :
    (ofRanks vs).dividedBy (ofNumber y)
      = if y == 0.0 then .error .divisionByZero else .ok (ofRanks (vs.map (· / y))) :=
  rfl

/-! ### A single number on the left -/

theorem ofNumber_add (h : vs ≠ []) (x : Float) :
    ofNumber x + ofRanks vs = ofRanks (vs.map (x + ·)) := by
  show ofRanks (Ranks.add [x] (vs.map (· * 1.0))) = _
  simp only [Doubles.mul_one, List.map_id', Ranks.singleton_add h]

theorem ofNumber_sub (h : vs ≠ []) (x : Float) :
    ofNumber x - ofRanks vs = ofRanks (vs.map (x - ·)) := by
  have hm : vs.map (· * -1.0) ≠ [] := fun h' => h (List.map_eq_nil_iff.1 h')
  show ofRanks (Ranks.add [x] (vs.map (· * -1.0))) = _
  rw [Ranks.singleton_add hm, List.map_map]
  simp only [Function.comp_def, Doubles.add_mul_neg_one]

theorem ofNumber_times (h : 2 ≤ vs.length) (x : Float) :
    (ofNumber x).times (ofRanks vs) = .ok (ofRanks (vs.map (x * ·))) := by
  rw [times, scalar?_ofRanks h, scalar?_ofNumber]
  show Except.ok (ofRanks (vs.map (· * x))) = _
  simp only [Doubles.mul_comm _ x]

/-- Nothing is divided by more than one rank. -/
theorem ofNumber_dividedBy (h : 2 ≤ vs.length) (x : Float) :
    (ofNumber x).dividedBy (ofRanks vs) = .error .nonScalarDivisor := by
  rw [dividedBy, scalar?_ofRanks h]

end Amount

namespace Expr

/-! ## Names, divisors and values -/

/-- The names in an expression, those inside of calls left out. -/
def names : Expr → List String
  | number _ => []
  | name s => [s]
  | signed _ e => e.names
  | binary _ l r => l.names ++ r.names
  | call _ _ => []

theorem length_names : ∀ e : Expr, e.names.length = e.nameCount
  | number _ => rfl
  | name _ => rfl
  | signed _ e => e.length_names
  | binary _ l r => by
    rw [names, nameCount, List.length_append, l.length_names, r.length_names]
  | call _ _ => rfl

/-- What is divided by in an expression. -/
def divisors : Expr → List Expr
  | number _ => []
  | name _ => []
  | signed _ e => e.divisors
  | binary op l r => (if op = .div then [r] else []) ++ (l.divisors ++ r.divisors)
  | call _ _ => []

/-- The operation on single numbers; those without a value give zero. -/
def Op.value (x y : Float) : Op → Float
  | .add => x + y
  | .sub => x - y
  | .mul => x * y
  | .div => x / y
  | _ => 0.0

/-- The sign in front of a single number. -/
def Sign.value (x : Float) : Sign → Float
  | .plus => x
  | .minus => -x

/-- The value of an expression over single numbers, with `x` for every name. Calls,
which have no value, give zero. -/
def valueAt : Expr → Float → Float
  | number y, _ => y
  | name _, x => x
  | signed sign e, x => sign.value (e.valueAt x)
  | binary op l r, x => op.value (l.valueAt x) (r.valueAt x)
  | call _ _, _ => 0.0

/-- Without names it does not matter what names stand for. -/
theorem valueAt_of_names_nil (x y : Float) :
    ∀ {e : Expr}, e.names = [] → e.valueAt x = e.valueAt y
  | number _, _ => rfl
  | signed sign e, h => congrArg sign.value (valueAt_of_names_nil x y h)
  | binary op l r, h => by
    obtain ⟨hl, hr⟩ := List.append_eq_nil_iff.1 h
    rw [valueAt, valueAt, valueAt_of_names_nil x y hl, valueAt_of_names_nil x y hr]
  | call _ _, _ => rfl

theorem exists_value_of_names_nil {e : Expr} (h : e.names = []) : ∃ y, ∀ x, e.valueAt x = y :=
  ⟨e.valueAt 0.0, fun x => valueAt_of_names_nil x 0.0 h⟩

/-- What is divided by in an expression without names has none either. -/
theorem names_of_mem_divisors {d : Expr} :
    ∀ {e : Expr}, e.names = [] → d ∈ e.divisors → d.names = []
  | signed _ e, h, hd => names_of_mem_divisors (e := e) h hd
  | binary op l r, h, hd => by
    obtain ⟨hl, hr⟩ := List.append_eq_nil_iff.1 h
    rcases List.mem_append.1 hd with hd | hd
    · split at hd
      · rwa [List.mem_singleton.1 hd]
      · cases hd
    · rcases List.mem_append.1 hd with hd | hd
      · exact names_of_mem_divisors hl hd
      · exact names_of_mem_divisors hr hd

/-- The divisors of an operation are its own and those of its sides. -/
theorem forall_divisors_binary {p : Expr → Prop} {op : Op} {l r : Expr} :
    (∀ d ∈ (binary op l r).divisors, p d) ↔
      (op = .div → p r) ∧ (∀ d ∈ l.divisors, p d) ∧ ∀ d ∈ r.divisors, p d := by
  rw [divisors, List.forall_mem_append, List.forall_mem_append]
  refine and_congr_left fun _ => ?_
  split
  · next h => simp [h]
  · next h => simp [h]

/-! ## Operations on flat amounts -/

section

variable {op : Op} {vs : List Float} {c : Amount}

/-- A sign applies at every rank. -/
theorem Sign.apply_ofRanks (sign : Sign) (vs : List Float) :
    sign.apply (.ofRanks vs) = .ofRanks (vs.map sign.value) := by
  cases sign with
  | plus => exact congrArg Amount.ofRanks (List.map_id' vs).symm
  | minus => rfl

/-- An operation with a single number on the right is done at every rank. -/
theorem Op.result_right (ho : op.isArithmetic = true) (hv : vs ≠ []) (y : Float) :
    op.result? (.ofRanks vs) (.ofNumber y)
      = some (if op = .div ∧ (y == 0.0) = true then .error .divisionByZero
          else .ok (.ofRanks (vs.map fun x => op.value x y))) := by
  cases op with
  | add =>
    rw [result?, Amount.add_ofNumber hv]
    rfl
  | sub =>
    rw [result?, Amount.sub_ofNumber hv]
    rfl
  | mul => exact congrArg some (Amount.times_ofNumber vs y)
  | div =>
    rw [result?, Amount.dividedBy_ofNumber]
    simp only [true_and]
    rfl
  | _ => cases ho

/-- An operation with a single number on the left is done at every rank, but no number
is divided by several ones. -/
theorem Op.result_left (ho : op.isArithmetic = true) (hv : 2 ≤ vs.length) (x : Float) :
    op.result? (.ofNumber x) (.ofRanks vs)
      = some (if op = .div then .error .nonScalarDivisor
          else .ok (.ofRanks (vs.map fun y => op.value x y))) := by
  have hne : vs ≠ [] := List.ne_nil_of_length_pos (by omega)
  cases op with
  | add =>
    rw [result?, Amount.ofNumber_add hne]
    rfl
  | sub =>
    rw [result?, Amount.ofNumber_sub hne]
    rfl
  | mul => exact congrArg some (Amount.ofNumber_times hv x)
  | div => exact congrArg some (Amount.ofNumber_dividedBy hv x)
  | _ => cases ho

/-- An operation with a number on the right is done rank by rank, unless it divides by zero. -/
theorem Op.result_right_eq_ok (ho : op.isArithmetic = true) (hv : vs ≠ []) (y : Float) :
    op.result? (.ofRanks vs) (.ofNumber y) = some (.ok c) ↔
      (op = .div → (y == 0.0) = false) ∧ c = .ofRanks (vs.map fun x => op.value x y) := by
  rw [op.result_right ho hv, Option.some.injEq]
  by_cases h : op = .div ∧ (y == 0.0) = true
  · rw [if_pos h]
    exact ⟨nofun, fun h' => absurd (h'.1 h.1) (by simp [h.2])⟩
  · rw [if_neg h, Except.ok.injEq]
    refine ⟨fun h' => ⟨fun ho => ?_, h'.symm⟩, fun h' => h'.2.symm⟩
    exact Bool.eq_false_iff.2 fun hy => h ⟨ho, hy⟩

/-- An operation with a number on the left is done rank by rank, unless it divides. -/
theorem Op.result_left_eq_ok (ho : op.isArithmetic = true) (hv : 2 ≤ vs.length) (x : Float) :
    op.result? (.ofNumber x) (.ofRanks vs) = some (.ok c) ↔
      op ≠ .div ∧ c = .ofRanks (vs.map fun y => op.value x y) := by
  rw [op.result_left ho hv, Option.some.injEq]
  by_cases h : op = .div
  · rw [if_pos h]
    exact ⟨nofun, fun h' => absurd h h'.1⟩
  · rw [if_neg h, Except.ok.injEq]
    exact ⟨fun h' => ⟨h, h'.symm⟩, fun h' => h'.2.symm⟩

end

/-! ## Evaluation -/

variable {lookup lookup' : Lookup}

/-- An expression reads its names and nothing else. -/
theorem evaluate_congr :
    ∀ {e : Expr}, (∀ s ∈ e.names, lookup s = lookup' s) → e.evaluate lookup = e.evaluate lookup'
  | number _, _ => rfl
  | name s, h => h s List.mem_cons_self
  | signed sign e, h => by
    have he : e.evaluate lookup = e.evaluate lookup' := evaluate_congr h
    simp only [evaluate, he]
  | binary op l r, h => by
    have hl : l.evaluate lookup = l.evaluate lookup' :=
      evaluate_congr fun s hs => h s (List.mem_append_left _ hs)
    have hr : r.evaluate lookup = r.evaluate lookup' :=
      evaluate_congr fun s hs => h s (List.mem_append_right _ hs)
    simp only [evaluate, hl, hr]
  | call _ _, _ => rfl

/-- What a sign stands before has an amount if the whole has one. -/
theorem evaluate_signed_eq_ok {sign : Sign} {e : Expr} {b : Amount} :
    (signed sign e).evaluate lookup = .ok b ↔
      ∃ a, e.evaluate lookup = .ok a ∧ sign.apply a = b := by
  rw [evaluate, bind_eq_ok]
  simp [pure, Except.pure]

/-- Both operands have amounts if the whole has one. -/
theorem evaluate_binary_eq_ok {op : Op} {l r : Expr} {c : Amount} :
    (binary op l r).evaluate lookup = .ok c ↔
      ∃ a b, l.evaluate lookup = .ok a ∧ r.evaluate lookup = .ok b ∧
        op.result? a b = some (.ok c) := by
  have hget : ∀ a b,
      (op.result? a b).getD (.error (.unsupportedExpression (binary op l r).describe)) = .ok c ↔
        op.result? a b = some (.ok c) := fun a b => by
    cases op.result? a b <;> simp
  rw [evaluate, bind_eq_ok]
  simp only [bind_eq_ok, hget]
  constructor
  · rintro ⟨a, ha, b, hb, h⟩
    exact ⟨a, b, ha, hb, h⟩
  · rintro ⟨a, b, ha, hb, h⟩
    exact ⟨a, ha, b, hb, h⟩

/-- With single numbers under all names, a simple expression comes to its value as long
as it divides by no zero. -/
theorem evaluate_scalar {x : Float} :
    ∀ {e : Expr}, e.isSimple = true → (∀ s ∈ e.names, lookup s = .ok (.ofNumber x)) →
      ∀ b, e.evaluate lookup = .ok b ↔
        (∀ d ∈ e.divisors, (d.valueAt x == 0.0) = false) ∧ b = .ofNumber (e.valueAt x)
  | number y, _, _, b => by
    rw [evaluate, Except.ok.injEq]
    exact ⟨fun h => ⟨fun _ hd => (nomatch hd), h.symm⟩, fun h => h.2.symm⟩
  | name s, _, h, b => by
    rw [evaluate, h s List.mem_cons_self, Except.ok.injEq]
    exact ⟨fun h => ⟨fun _ hd => (nomatch hd), h.symm⟩, fun h => h.2.symm⟩
  | signed sign e, hs, h, b => by
    have hb : sign.apply (.ofNumber (e.valueAt x)) = .ofNumber ((signed sign e).valueAt x) :=
      sign.apply_ofRanks [e.valueAt x]
    simp only [evaluate_signed_eq_ok, evaluate_scalar (e := e) hs h]
    constructor
    · rintro ⟨a, ⟨hd, rfl⟩, rfl⟩
      exact ⟨hd, hb⟩
    · rintro ⟨hd, rfl⟩
      exact ⟨_, ⟨hd, rfl⟩, hb⟩
  | binary op l r, hs, h, c => by
    simp only [isSimple, Bool.and_eq_true] at hs
    obtain ⟨⟨ho, hl⟩, hr⟩ := hs
    have ihl := evaluate_scalar hl fun s hs => h s (List.mem_append_left _ hs)
    have ihr := evaluate_scalar hr fun s hs => h s (List.mem_append_right _ hs)
    have hres := @Op.result_right_eq_ok op [l.valueAt x] c ho (List.cons_ne_nil _ _) (r.valueAt x)
    simp only [evaluate_binary_eq_ok, ihl, ihr, forall_divisors_binary]
    constructor
    · rintro ⟨a, b, ⟨hdl, rfl⟩, ⟨hdr, rfl⟩, hc⟩
      obtain ⟨hd, rfl⟩ := hres.1 hc
      exact ⟨⟨hd, hdl, hdr⟩, rfl⟩
    · rintro ⟨⟨hd, hdl, hdr⟩, rfl⟩
      exact ⟨_, _, ⟨hdl, rfl⟩, ⟨hdr, rfl⟩, hres.2 ⟨hd, rfl⟩⟩
  | call _ _, hs, _, _ => by cases hs

/-- The divisor does not hold the name and is zero at no rank. -/
def Divides (vs : List Float) (d : Expr) : Prop :=
  d.names = [] ∧ ∀ x ∈ vs, (d.valueAt x == 0.0) = false

/-- Without names an expression comes to a single number. -/
theorem evaluate_free {vs : List Float} (hv : vs ≠ []) {e : Expr} (hs : e.isSimple = true)
    (hn : e.names = []) {y : Float} (hy : ∀ x, e.valueAt x = y) (b : Amount) :
    e.evaluate lookup = .ok b ↔ (∀ d ∈ e.divisors, d.Divides vs) ∧ b = .ofNumber y := by
  obtain ⟨x, hx⟩ := List.exists_mem_of_ne_nil vs hv
  have hnames : ∀ s ∈ e.names, lookup s = .ok (.ofNumber x) := by simp [hn]
  rw [evaluate_scalar hs hnames, hy x]
  refine and_congr_left fun _ => forall₂_congr fun d hd => ?_
  have hdn := names_of_mem_divisors hn hd
  refine ⟨fun h => ⟨hdn, fun z _ => ?_⟩, fun h => h.2 x hx⟩
  rwa [valueAt_of_names_nil z x hdn]

/-- With several ranks under the one name, a simple expression comes to its values at
the ranks as long as it does not divide by the name or by zero. -/
theorem evaluate_ranks {s : String} {vs : List Float} (hv : 2 ≤ vs.length)
    (hl : lookup s = .ok (.ofRanks vs)) :
    ∀ {e : Expr}, e.isSimple = true → e.names = [s] →
      ∀ b, e.evaluate lookup = .ok b ↔
        (∀ d ∈ e.divisors, d.Divides vs) ∧ b = .ofRanks (vs.map fun x => e.valueAt x)
  | name t, _, hn, b => by
    obtain rfl := List.singleton_inj.1 hn
    have hm : vs.map (fun x => (name t).valueAt x) = vs := List.map_id' vs
    rw [evaluate, hl, Except.ok.injEq, hm]
    exact ⟨fun h => ⟨fun _ hd => (nomatch hd), h.symm⟩, fun h => h.2.symm⟩
  | signed sign e, hs, hn, b => by
    have hb : sign.apply (.ofRanks (vs.map fun x => e.valueAt x))
        = .ofRanks (vs.map fun x => (signed sign e).valueAt x) := by
      rw [sign.apply_ofRanks, List.map_map]
      rfl
    simp only [evaluate_signed_eq_ok, evaluate_ranks hv hl (e := e) hs hn]
    constructor
    · rintro ⟨a, ⟨hd, rfl⟩, rfl⟩
      exact ⟨hd, hb⟩
    · rintro ⟨hd, rfl⟩
      exact ⟨_, ⟨hd, rfl⟩, hb⟩
  | binary op l r, hs, hn, c => by
    have hne : vs ≠ [] := List.ne_nil_of_length_pos (by omega)
    simp only [isSimple, Bool.and_eq_true] at hs
    obtain ⟨⟨ho, hsl⟩, hsr⟩ := hs
    simp only [evaluate_binary_eq_ok, forall_divisors_binary]
    rcases List.append_eq_singleton_iff.1 hn with ⟨hnl, hnr⟩ | ⟨hnl, hnr⟩
    · -- The name is on the right, where it must not be divided by.
      obtain ⟨y, hy⟩ := exists_value_of_names_nil hnl
      have hres := @Op.result_left_eq_ok op (vs.map fun x => r.valueAt x) c ho (by simpa) y
      have hval : (vs.map fun x => r.valueAt x).map (fun z => op.value y z)
          = vs.map fun x => (binary op l r).valueAt x := by
        simp [valueAt, hy]
      have hd : (op = .div → r.Divides vs) ↔ op ≠ .div := by
        simp [Divides, hnr]
      rw [hval] at hres
      simp only [evaluate_free hne hsl hnl hy, evaluate_ranks hv hl hsr hnr, hd]
      constructor
      · rintro ⟨a, b, ⟨hdl, rfl⟩, ⟨hdr, rfl⟩, hc⟩
        exact ⟨⟨(hres.1 hc).1, hdl, hdr⟩, (hres.1 hc).2⟩
      · rintro ⟨⟨ho, hdl, hdr⟩, hc⟩
        exact ⟨_, _, ⟨hdl, rfl⟩, ⟨hdr, rfl⟩, hres.2 ⟨ho, hc⟩⟩
    · -- The name is on the left, and what stands on the right is a single number.
      obtain ⟨y, hy⟩ := exists_value_of_names_nil hnr
      have hres := @Op.result_right_eq_ok op (vs.map fun x => l.valueAt x) c ho (by simpa) y
      have hval : (vs.map fun x => l.valueAt x).map (fun z => op.value z y)
          = vs.map fun x => (binary op l r).valueAt x := by
        simp [valueAt, hy]
      have hd : r.Divides vs ↔ (y == 0.0) = false := by
        obtain ⟨x, hx⟩ := List.exists_mem_of_ne_nil vs hne
        rw [← hy x]
        exact ⟨fun h => h.2 x hx, fun h => ⟨hnr, fun z _ => by rwa [hy z, ← hy x]⟩⟩
      rw [hval] at hres
      simp only [evaluate_free hne hsr hnr hy, evaluate_ranks hv hl hsl hnl, hd]
      constructor
      · rintro ⟨a, b, ⟨hdl, rfl⟩, ⟨hdr, rfl⟩, hc⟩
        exact ⟨⟨(hres.1 hc).1, hdl, hdr⟩, (hres.1 hc).2⟩
      · rintro ⟨⟨ho, hdl, hdr⟩, hc⟩
        exact ⟨_, _, ⟨hdl, rfl⟩, ⟨hdr, rfl⟩, hres.2 ⟨ho, hc⟩⟩
  | number _, _, hn, _ => by cases hn
  | call _ _, hs, _, _ => by cases hs

/-! ## Faults -/

/-- One of the two faults of a quotient. -/
def IsDivisionFault (f : Fault) : Prop := f = .divisionByZero ∨ f = .nonScalarDivisor

/-- With a single number on one side, only a quotient can fail. -/
theorem Op.result_fault {op : Op} {a b : Amount} {f g : Fault} (ho : op.isArithmetic = true)
    (h : a.scalar? ≠ none ∨ b.scalar? ≠ none) (hf : (op.result? a b).getD (.error g) = .error f) :
    IsDivisionFault f := by
  cases op with
  | add => cases hf
  | sub => cases hf
  | mul =>
    rw [result?, Option.getD_some, Amount.times] at hf
    split at hf
    · cases hf
    · cases hf
    · next hb ha => exact absurd h (by simp [ha, hb])
  | div =>
    rw [result?, Option.getD_some, Amount.dividedBy] at hf
    split at hf
    · exact .inr (Except.error.inj hf).symm
    · split at hf
      · exact .inl (Except.error.inj hf).symm
      · cases hf
  | _ => cases ho

/-- A simple tree without names gives a scalar. -/
theorem scalar?_ne_none_of_names_nil {e : Expr} {b : Amount} (hs : e.isSimple = true)
    (hn : e.names = []) (hb : e.evaluate lookup = .ok b) : b.scalar? ≠ none := by
  have h := (evaluate_scalar (x := 0.0) hs (by simp [hn]) b).1 hb
  rw [h.2]
  exact Option.some_ne_none _

/-- With at most one name, and an amount under it, only a quotient can fail. -/
theorem evaluate_fault {f : Fault} :
    ∀ {e : Expr}, e.isSimple = true → e.names.length ≤ 1 →
      (∀ s ∈ e.names, ∃ a, lookup s = .ok a) → e.evaluate lookup = .error f → IsDivisionFault f
  | number _, _, _, _, hf => by cases hf
  | name s, _, _, h, hf => by
    obtain ⟨a, ha⟩ := h s List.mem_cons_self
    rw [evaluate, ha] at hf
    cases hf
  | signed sign e, hs, hn, h, hf => by
    cases he : e.evaluate lookup with
    | error g =>
      rw [evaluate, he] at hf
      cases hf
      exact evaluate_fault (e := e) hs hn h he
    | ok a =>
      rw [evaluate, he] at hf
      cases hf
  | binary op l r, hs, hn, h, hf => by
    simp only [isSimple, Bool.and_eq_true] at hs
    obtain ⟨⟨ho, hsl⟩, hsr⟩ := hs
    rw [names, List.length_append] at hn
    cases hl : l.evaluate lookup with
    | error g =>
      rw [evaluate, hl] at hf
      cases hf
      exact evaluate_fault hsl (by omega) (fun s hs => h s (List.mem_append_left _ hs)) hl
    | ok a =>
      cases hr : r.evaluate lookup with
      | error g =>
        rw [evaluate, hl, hr] at hf
        cases hf
        exact evaluate_fault hsr (by omega) (fun s hs => h s (List.mem_append_right _ hs)) hr
      | ok b =>
        rw [evaluate, hl, hr] at hf
        refine Op.result_fault ho ?_ hf
        -- One of the two sides has no name.
        rcases Nat.eq_zero_or_pos l.names.length with h0 | h0
        · have hnl : l.names = [] := List.eq_nil_of_length_eq_zero h0
          exact .inl (scalar?_ne_none_of_names_nil hsl hnl hl)
        · have hnr : r.names = [] := List.eq_nil_of_length_eq_zero (by omega)
          exact .inr (scalar?_ne_none_of_names_nil hsr hnr hr)
  | call _ _, hs, _, _, _ => by cases hs

/-! ## Calculated texts -/

/-- A simple text with one name in it has the amount of the plain arithmetic on single
numbers, rank by rank. Nothing but this name is looked up, and if there is an amount
under it, only a quotient can fail : where the divisor holds the name and there are
several ranks, or where it is zero. -/
theorem evaluateText_rankwise {source : String} {e : Expr} (hp : parse source = .ok e)
    (hs : e.isSimple = true) (hn : e.nameCount = 1) :
    ∃ s, e.names = [s] ∧
      (∀ lookup lookup' : Lookup, lookup s = lookup' s →
        evaluateText lookup source = evaluateText lookup' source) ∧
      ∀ (lookup : Lookup) (a : Amount), lookup s = .ok a →
        (∀ f, evaluateText lookup source = .error f → IsDivisionFault f) ∧
        ∀ vs : List Float, vs ≠ [] → a = .ofRanks vs →
          ∀ b, evaluateText lookup source = .ok b ↔
            (2 ≤ vs.length → ∀ d ∈ e.divisors, d.names = []) ∧
              (∀ d ∈ e.divisors, ∀ x ∈ vs, (d.valueAt x == 0.0) = false) ∧
              b = .ofRanks (vs.map fun x => e.valueAt x) := by
  obtain ⟨s, hnames⟩ := List.length_eq_one_iff.1 (e.length_names.trans hn)
  have htext : ∀ lookup, evaluateText lookup source = e.evaluate lookup := fun lookup => by
    simp [evaluateText, hp, isCalculated, hs, hn]
  refine ⟨s, hnames, fun lookup lookup' h => ?_, fun lookup a ha => ⟨fun f hf => ?_, ?_⟩⟩
  · rw [htext, htext]
    exact evaluate_congr (by simpa [hnames] using h)
  · rw [htext] at hf
    exact evaluate_fault hs (by simp [hnames]) (by simpa [hnames] using ⟨a, ha⟩) hf
  · rintro vs hv rfl b
    rw [htext]
    match vs, hv with
    | [x], _ =>
      have hx : ∀ s' ∈ e.names, lookup s' = .ok (.ofNumber x) := by
        rw [hnames]
        exact List.forall_mem_singleton.2 ha
      rw [evaluate_scalar hs hx]
      simp [Amount.ofNumber]
    | x :: y :: rest, _ =>
      have hlen : 2 ≤ (x :: y :: rest).length := Nat.le_add_left 2 _
      rw [evaluate_ranks hlen ha hs hnames]
      simp only [Divides, hlen, true_implies, forall_and, and_assoc]

/-- The tree of `e1 / 10 + 1`. -/
def tenthAndOne : Expr := binary .add (binary .div (name "e1") (number 10.0)) (number 1.0)

/-- Trees have no decidable equality, as calls nest them. This tells one of them. -/
def isTenthAndOne : Except SyntaxError Expr → Bool
  | .ok (binary .add (binary .div (name s) (number x)) (number y)) =>
    s == "e1" && decide (x = 10.0) && decide (y = 1.0)
  | _ => false

theorem eq_of_isTenthAndOne : ∀ {r}, isTenthAndOne r = true → r = .ok tenthAndOne
  | .ok (binary .add (binary .div (name s) (number x)) (number y)), h => by
    simp only [isTenthAndOne, Bool.and_eq_true, decide_eq_true_eq, beq_iff_eq] at h
    obtain ⟨⟨rfl, rfl⟩, rfl⟩ := h
    rfl

theorem evaluateText_rankwise_tenth :
    parse "e1 / 10 + 1" = .ok tenthAndOne ∧ tenthAndOne.isSimple = true ∧
      tenthAndOne.nameCount = 1 ∧
      evaluateText (fun _ => .ok (.ofRanks [10.0, 20.0, 30.0])) "e1 / 10 + 1"
        = .ok (.ofRanks [2.0, 3.0, 4.0]) := by
  have hp : parse "e1 / 10 + 1" = .ok tenthAndOne := eq_of_isTenthAndOne (by decide +kernel)
  obtain ⟨s, -, -, h⟩ := evaluateText_rankwise hp rfl rfl
  have hv : [10.0, 20.0, 30.0].map (fun x => tenthAndOne.valueAt x) = [2.0, 3.0, 4.0] := by decide
  have hd : ∀ d ∈ tenthAndOne.divisors, d = number 10.0 := by simp [tenthAndOne, divisors]
  refine ⟨hp, rfl, rfl, ((h _ _ rfl).2 [10.0, 20.0, 30.0] nofun rfl _).2 ⟨fun _ d h => ?_, ?_, ?_⟩⟩
  · rw [hd d h]
    rfl
  · intro d h x _
    have hz : ((10.0 : Float) == 0.0) = false := by decide
    rwa [hd d h]
  · rw [hv]

end Expr

end SpellText
