/-
Compiling keeps the predicate.

`Mirrors` says what it means for a filter to have the shape of a predicate: an "and" or an "or" is
one filter of the same junction with its two sides as children, in order, and a leaf is the one
condition it compiles to.  Nothing is merged, re-tagged, dropped or moved.  `child_eq_ok_iff` shows
that compiling succeeds exactly when there is such a filter, and then gives it; the meaning of the
filter and the order of its conditions are read off the relation by induction, so neither proof
looks at the compiler again.

A predicate's value depends on what its leaves are worth, and a filter's on what its conditions are.
`leafTruth` ties the two: a leaf is worth what the condition it compiles to is.
-/
import TypedRecords.Proofs.Outcome
import TypedRecords.Query.Predicate

namespace TypedRecords.Query

variable {catalog : Catalog} {s : Schema}

/-! ### The shape of a compiled predicate -/

namespace Predicate

/-- A filter child has the shape of a predicate. -/
inductive Mirrors (catalog : Catalog) (s : Schema) : Predicate → FilterChild → Prop
  | leaf {p : Predicate} {c : Condition} (hc : p.condition catalog s = .ok c) :
      Mirrors catalog s p (.condition c)
  | and {left right : Predicate} {a b : FilterChild} (hl : Mirrors catalog s left a)
      (hr : Mirrors catalog s right b) : Mirrors catalog s (.and left right) (.filter .and [a, b])
  | or {left right : Predicate} {a b : FilterChild} (hl : Mirrors catalog s left a)
      (hr : Mirrors catalog s right b) : Mirrors catalog s (.or left right) (.filter .or [a, b])

/-- A filter has the shape of a whole predicate: a leaf stands alone under an "and", and any other
predicate is the filter that mirrors it. -/
inductive MirrorsRoot (catalog : Catalog) (s : Schema) : Predicate → Filter → Prop
  | leaf {p : Predicate} {c : Condition} (hc : p.condition catalog s = .ok c) :
      MirrorsRoot catalog s p ⟨.and, [.condition c]⟩
  | node {p : Predicate} {junction : Junction} {children : List FilterChild}
      (h : Mirrors catalog s p (.filter junction children)) :
      MirrorsRoot catalog s p ⟨junction, children⟩

/-- What a leaf is worth when `truth` says which conditions hold. -/
def leafTruth (catalog : Catalog) (s : Schema) (truth : Condition → Bool) (leaf : Predicate) :
    Bool :=
  match leaf.condition catalog s with
  | .ok c => truth c
  | .error _ => false

/-! ### Leaves -/

/-- A predicate with a condition is a leaf. -/
theorem isLogical_of_condition {p : Predicate} {c : Condition}
    (hc : p.condition catalog s = .ok c) : p.isLogical = false := by
  unfold condition at hc
  obtain ⟨part, hleaf, -⟩ := bind_eq_ok.mp hc
  cases p with
  | and left right => cases hleaf
  | or left right => cases hleaf
  | _ => rfl

theorem holds_of_leaf {p : Predicate} (hp : p.isLogical = false) (truth : Predicate → Bool) :
    p.holds truth = truth p := by
  cases p <;> simp_all [isLogical, holds]

theorem leaves_of_leaf {p : Predicate} (hp : p.isLogical = false) : p.leaves = [p] := by
  cases p <;> simp_all [isLogical, leaves]

theorem child_of_leaf {p : Predicate} (hp : p.isLogical = false) :
    p.child catalog s = FilterChild.condition <$> p.condition catalog s := by
  cases p <;> simp_all [isLogical, child]

/-! ### The compiler finds the mirror, and only that -/

theorem mirrors_of_child {p : Predicate} : ∀ {a : FilterChild},
    p.child catalog s = .ok a → Mirrors catalog s p a := by
  induction p with
  | and left right ihl ihr =>
      intro a h
      unfold child at h
      obtain ⟨l, hl, h⟩ := bind_eq_ok.mp h
      obtain ⟨r, hr, h⟩ := bind_eq_ok.mp h
      cases h
      exact .and (ihl hl) (ihr hr)
  | or left right ihl ihr =>
      intro a h
      unfold child at h
      obtain ⟨l, hl, h⟩ := bind_eq_ok.mp h
      obtain ⟨r, hr, h⟩ := bind_eq_ok.mp h
      cases h
      exact .or (ihl hl) (ihr hr)
  | _ =>
      intro a h
      rw [child_of_leaf rfl] at h
      obtain ⟨c, hc, rfl⟩ := map_eq_ok.mp h
      exact .leaf hc

theorem child_of_mirrors {p : Predicate} {a : FilterChild} (h : Mirrors catalog s p a) :
    p.child catalog s = .ok a := by
  induction h with
  | leaf hc =>
      rw [child_of_leaf (isLogical_of_condition hc), hc]
      rfl
  | and _ _ ihl ihr =>
      unfold child
      rw [ihl, ihr]
      rfl
  | or _ _ ihl ihr =>
      unfold child
      rw [ihl, ihr]
      rfl

theorem child_eq_ok_iff {p : Predicate} {a : FilterChild} :
    p.child catalog s = .ok a ↔ Mirrors catalog s p a :=
  ⟨mirrors_of_child, child_of_mirrors⟩

/-- **A predicate's filter is the one with its shape.**  There is none exactly when some leaf has no
condition. -/
theorem toFilter_eq_ok_iff {p : Predicate} {f : Filter} :
    p.toFilter catalog s = .ok f ↔ MirrorsRoot catalog s p f := by
  unfold toFilter
  rw [map_eq_ok]
  constructor
  · rintro ⟨a, ha, rfl⟩
    have hm := child_eq_ok_iff.mp ha
    cases hm with
    | leaf hc => exact .leaf hc
    | and hl hr => exact .node (.and hl hr)
    | or hl hr => exact .node (.or hl hr)
  · intro h
    cases h with
    | leaf hc => exact ⟨_, child_eq_ok_iff.mpr (.leaf hc), rfl⟩
    | node hm => exact ⟨_, child_eq_ok_iff.mpr hm, rfl⟩

/-! ### Meaning and order -/

/-- A mirror holds when the predicate does. -/
theorem Mirrors.holds_eq {p : Predicate} {a : FilterChild} (h : Mirrors catalog s p a)
    (truth : Condition → Bool) : a.holds truth = p.holds (leafTruth catalog s truth) := by
  induction h with
  | @leaf p c hc =>
      rw [holds_of_leaf (isLogical_of_condition hc)]
      show truth c = leafTruth catalog s truth p
      unfold leafTruth
      rw [hc]
  | and _ _ ihl ihr =>
      rw [holds, ← ihl, ← ihr]
      simp [FilterChild.holds, FilterChild.holdsEach, Junction.join]
  | or _ _ ihl ihr =>
      rw [holds, ← ihl, ← ihr]
      simp [FilterChild.holds, FilterChild.holdsEach, Junction.join]

/-- A mirror's conditions are those of the leaves, in order. -/
theorem Mirrors.leaves_eq {p : Predicate} {a : FilterChild} (h : Mirrors catalog s p a) :
    p.leaves.map (·.condition catalog s) = a.leaves.map .ok := by
  induction h with
  | leaf hc =>
      rw [leaves_of_leaf (isLogical_of_condition hc)]
      simp [FilterChild.leaves, hc]
  | and _ _ ihl ihr =>
      simp [leaves, FilterChild.leaves, FilterChild.leavesEach, ihl, ihr]
  | or _ _ ihl ihr =>
      simp [leaves, FilterChild.leaves, FilterChild.leavesEach, ihl, ihr]

theorem MirrorsRoot.holds_eq {p : Predicate} {f : Filter} (h : MirrorsRoot catalog s p f)
    (truth : Condition → Bool) : f.holds truth = p.holds (leafTruth catalog s truth) := by
  cases h with
  | leaf hc =>
      rw [← (Mirrors.leaf hc).holds_eq truth]
      simp [Filter.holds, Filter.asChild, FilterChild.holds, FilterChild.holdsEach, Junction.join]
  | node hm => exact hm.holds_eq truth

theorem MirrorsRoot.leaves_eq {p : Predicate} {f : Filter} (h : MirrorsRoot catalog s p f) :
    p.leaves.map (·.condition catalog s) = f.leaves.map .ok := by
  cases h with
  | leaf hc =>
      rw [(Mirrors.leaf hc).leaves_eq]
      simp [Filter.leaves, Filter.asChild, FilterChild.leaves, FilterChild.leavesEach]
  | node hm => exact hm.leaves_eq

end Predicate

/-- Compiling for a type is compiling over its schema. -/
theorem compile_eq_ok_iff {type : TypeName} {p : Predicate} {f : Filter} :
    compile catalog type p = .ok f ↔
      ∃ s, catalog.schema? type = some s ∧ p.MirrorsRoot catalog s f := by
  unfold compile
  cases catalog.schema? type with
  | none => simp
  | some s => simp [Predicate.toFilter_eq_ok_iff]

/--
**A compiled filter means what its predicate says.**

The filter has the predicate's shape; under every truth assignment to conditions it holds exactly
when the predicate does, each leaf being worth what its condition is; and its conditions, from left
to right, are those of the predicate's leaves, from left to right.  A filter of that shape is also
all it takes for compiling to succeed.
-/
theorem compile_faithful {type : TypeName} {p : Predicate} {f : Filter} :
    compile catalog type p = .ok f ↔
      ∃ s, catalog.schema? type = some s ∧
        p.MirrorsRoot catalog s f ∧
        (∀ truth, f.holds truth = p.holds (Predicate.leafTruth catalog s truth)) ∧
        p.leaves.map (·.condition catalog s) = f.leaves.map .ok := by
  rw [compile_eq_ok_iff]
  constructor
  · rintro ⟨s, hs, hm⟩
    exact ⟨s, hs, hm, fun truth => hm.holds_eq truth, hm.leaves_eq⟩
  · rintro ⟨s, hs, hm, -, -⟩
    exact ⟨s, hs, hm⟩

end TypedRecords.Query
