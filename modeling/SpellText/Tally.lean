/-!
# Tallies

What became of the placeholders of some texts: how many were replaced, how many
stayed, and a diagnostic for each that failed. Every placeholder counts once, as
replaced or as skipped; a failed one is skipped and has a diagnostic besides.

Tallies add up: `t ++ u` continues `t` with what `u` has counted.
-/

namespace SpellText

/-- A placeholder that could not be resolved. -/
structure Diagnostic where
  champion : String
  /-- The ability at hand, or `global` outside of abilities. -/
  ability : String
  placeholder : String
  message : String
  deriving DecidableEq, Repr

/-- Counts and diagnostics of resolved texts. -/
structure Tally where
  replaced : Nat
  skipped : Nat
  errors : List Diagnostic
  deriving DecidableEq, Repr

namespace Tally

/-- Nothing counted. -/
def empty : Tally := ⟨0, 0, []⟩

instance : Inhabited Tally := ⟨empty⟩

/-- One more placeholder replaced. -/
def countReplaced (t : Tally) : Tally := { t with replaced := t.replaced + 1 }

/-- One more placeholder passed over. -/
def countSkipped (t : Tally) : Tally := { t with skipped := t.skipped + 1 }

/-- One more placeholder failed. -/
def countFailure (t : Tally) (d : Diagnostic) : Tally :=
  { t with skipped := t.skipped + 1, errors := t.errors ++ [d] }

/-- Continue with the counts and diagnostics of `u`. -/
def merge (t u : Tally) : Tally :=
  ⟨t.replaced + u.replaced, t.skipped + u.skipped, t.errors ++ u.errors⟩

instance : Append Tally := ⟨merge⟩

/-- Nothing counted before changes nothing. -/
@[simp] theorem empty_append (t : Tally) : empty ++ t = t := by
  show merge empty t = t
  simp [merge, empty]

/-- Nothing counted afterwards changes nothing. -/
@[simp] theorem append_empty (t : Tally) : t ++ empty = t := by
  show merge t empty = t
  simp [merge, empty]

/-- How tallies are grouped does not matter. -/
theorem append_assoc (t u v : Tally) : t ++ u ++ v = t ++ (u ++ v) := by
  show merge (merge t u) v = merge t (merge u v)
  simp [merge, Nat.add_assoc]

@[simp] theorem replaced_append (t u : Tally) : (t ++ u).replaced = t.replaced + u.replaced := rfl

@[simp] theorem skipped_append (t u : Tally) : (t ++ u).skipped = t.skipped + u.skipped := rfl

@[simp] theorem errors_append (t u : Tally) : (t ++ u).errors = t.errors ++ u.errors := rfl

theorem countReplaced_eq (t : Tally) : t.countReplaced = t ++ ⟨1, 0, []⟩ := by
  show _ = merge t _
  simp [countReplaced, merge]

theorem countSkipped_eq (t : Tally) : t.countSkipped = t ++ ⟨0, 1, []⟩ := by
  show _ = merge t _
  simp [countSkipped, merge]

theorem countFailure_eq (t : Tally) (d : Diagnostic) : t.countFailure d = t ++ ⟨0, 1, [d]⟩ := rfl

/-- The placeholders seen. -/
def total (t : Tally) : Nat := t.replaced + t.skipped

end Tally

end SpellText
