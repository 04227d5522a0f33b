import SpellText.Formula.Evaluation

/-!
# What a formula looks up

A part of a formula has an amount only if every name in it has one
(`Part.ok_of_mem_names`), and then it keeps that amount wherever those names keep
theirs (`Part.evaluate_mono`). A part without an amount may stop at the first name
that has none, so that nothing is said about the names behind it. What becomes of a
part depends on the names in it only (`Part.evaluate_congr`).
-/

namespace SpellText.Formula

mutual

/-- The names in a part, from left to right. -/
def Part.names : Part → List String
  | .named name => [name]
  | .stat name => [name]
  | .number _ => []
  | .product left right => left.names ++ right.names
  | .sum parts => namesOfParts parts
  | .unsupported _ => []

/-- The names in a list of parts, from left to right. -/
def namesOfParts : List Part → List String
  | [] => []
  | part :: rest => part.names ++ namesOfParts rest

end

/-- The names in a formula, from left to right. -/
def names (f : Formula) : List String := namesOfParts f.parts

variable {lookup lookup' : Lookup}

/-! ## Amounts of parts -/

/-- A product has an amount if both factors have one and these can be multiplied. -/
theorem evaluate_product_eq_ok {left right : Part} {c : Amount} :
    (Part.product left right).evaluate lookup = .ok c ↔
      ∃ a b, left.evaluate lookup = .ok a ∧ right.evaluate lookup = .ok b ∧ a.times b = .ok c := by
  rw [Part.evaluate, bind_eq_ok]
  refine exists_congr fun a => ?_
  rw [bind_eq_ok]
  exact exists_and_left.symm

/-- Parts are summed if the first has an amount and the others are summed on from it. -/
theorem sumParts_cons_eq_ok {total c : Amount} {part : Part} {rest : List Part} :
    sumParts lookup total (part :: rest) = .ok c ↔
      ∃ a, part.evaluate lookup = .ok a ∧ sumParts lookup (total + a) rest = .ok c := by
  rw [sumParts, bind_eq_ok]

mutual

/-- Every name in a part with an amount has an amount. -/
theorem Part.ok_of_mem_names : ∀ {p : Part} {c : Amount}, p.evaluate lookup = .ok c →
    ∀ {name : String}, name ∈ p.names → ∃ a, lookup name = .ok a
  | .named _, c, h, name, hn => by
    obtain rfl := List.mem_singleton.1 hn
    exact ⟨c, h⟩
  | .stat _, _, h, name, hn => by
    obtain rfl := List.mem_singleton.1 hn
    obtain ⟨a, ha, -⟩ := map_eq_ok.1 h
    exact ⟨a, ha⟩
  | .product _ _, _, h, _, hn => by
    obtain ⟨a, b, hl, hr, -⟩ := evaluate_product_eq_ok.1 h
    rcases List.mem_append.1 hn with hn | hn
    · exact Part.ok_of_mem_names hl hn
    · exact Part.ok_of_mem_names hr hn
  | .sum _, _, h, _, hn => ok_of_mem_namesOfParts h hn

/-- Where parts are summed, every name in them has an amount. -/
theorem ok_of_mem_namesOfParts : ∀ {parts : List Part} {total c : Amount},
    sumParts lookup total parts = .ok c →
      ∀ {name : String}, name ∈ namesOfParts parts → ∃ a, lookup name = .ok a
  | _ :: _, _, _, h, _, hn => by
    obtain ⟨a, ha, hs⟩ := sumParts_cons_eq_ok.1 h
    rcases List.mem_append.1 hn with hn | hn
    · exact Part.ok_of_mem_names ha hn
    · exact ok_of_mem_namesOfParts hs hn

end

mutual

/-- A part keeps its amount where the names keep theirs. -/
theorem Part.evaluate_mono (hl : ∀ name a, lookup name = .ok a → lookup' name = .ok a) :
    ∀ {p : Part} {c : Amount}, p.evaluate lookup = .ok c → p.evaluate lookup' = .ok c
  | .named name, c, h => hl name c h
  | .stat name, c, h => by
    obtain ⟨a, ha, hc⟩ := map_eq_ok.1 h
    exact map_eq_ok.2 ⟨a, hl name a ha, hc⟩
  | .number _, _, h => h
  | .product _ _, _, h => by
    obtain ⟨a, b, ha, hb, hc⟩ := evaluate_product_eq_ok.1 h
    exact evaluate_product_eq_ok.2
      ⟨a, b, Part.evaluate_mono hl ha, Part.evaluate_mono hl hb, hc⟩
  | .sum _, _, h => sumParts_mono hl h

/-- A sum stays where more names have amounts. -/
theorem sumParts_mono (hl : ∀ name a, lookup name = .ok a → lookup' name = .ok a) :
    ∀ {parts : List Part} {total c : Amount}, sumParts lookup total parts = .ok c →
      sumParts lookup' total parts = .ok c
  | [], _, _, h => h
  | _ :: _, _, _, h => by
    obtain ⟨a, ha, hs⟩ := sumParts_cons_eq_ok.1 h
    exact sumParts_cons_eq_ok.2 ⟨a, Part.evaluate_mono hl ha, sumParts_mono hl hs⟩

end

mutual

/-- The amount of a part depends on the names in it only. -/
theorem Part.evaluate_congr : ∀ {p : Part}, (∀ name ∈ p.names, lookup name = lookup' name) →
    p.evaluate lookup = p.evaluate lookup'
  | .named name, h => h name (List.mem_singleton_self name)
  | .stat name, h => congrArg (·.map (scaling name)) (h name (List.mem_singleton_self name))
  | .number _, _ => rfl
  | .product left right, h => by
    have hl : left.evaluate lookup = left.evaluate lookup' :=
      Part.evaluate_congr fun name hn => h name (List.mem_append_left _ hn)
    have hr : right.evaluate lookup = right.evaluate lookup' :=
      Part.evaluate_congr fun name hn => h name (List.mem_append_right _ hn)
    rw [Part.evaluate, Part.evaluate, hl, hr]
  | .sum _, h => sumParts_congr h
  | .unsupported _, _ => rfl

/-- A sum depends on its own names only. -/
theorem sumParts_congr : ∀ {parts : List Part} {total : Amount},
    (∀ name ∈ namesOfParts parts, lookup name = lookup' name) →
      sumParts lookup total parts = sumParts lookup' total parts
  | [], _, _ => rfl
  | part :: _, _, h => by
    have hp : part.evaluate lookup = part.evaluate lookup' :=
      Part.evaluate_congr fun name hn => h name (List.mem_append_left _ hn)
    rw [sumParts, sumParts, hp]
    refine bind_congr fun _ => ?_
    exact sumParts_congr fun name hn => h name (List.mem_append_right _ hn)

end

/-! ## Amounts of formulas -/

/-- Where a formula has an amount, every name in it has one. -/
theorem ok_of_mem_names {f : Formula} {c : Amount} (h : f.evaluate lookup = .ok c) {name : String}
    (hn : name ∈ f.names) : ∃ a, lookup name = .ok a :=
  ok_of_mem_namesOfParts h hn

/-- The amount of a formula stays where more names have amounts. -/
theorem evaluate_mono (hl : ∀ name a, lookup name = .ok a → lookup' name = .ok a) {f : Formula}
    {c : Amount} (h : f.evaluate lookup = .ok c) : f.evaluate lookup' = .ok c :=
  sumParts_mono hl h

/-- The amount of a formula depends on its own names only. -/
theorem evaluate_congr {f : Formula} (h : ∀ name ∈ f.names, lookup name = lookup' name) :
    f.evaluate lookup = f.evaluate lookup' :=
  sumParts_congr h

end SpellText.Formula
