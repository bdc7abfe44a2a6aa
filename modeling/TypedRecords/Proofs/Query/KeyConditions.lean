/-
Key conditions and predicates ask the same.

What key conditions ask can be asked with a predicate: the conjunction of a comparison for each.  The
key conditions stand side by side under one "and" and a conjunction nests to the left, but both are
"and"s of the same conditions in the same order, with the state after them.  From the third
comparison on the two filters differ, in their nesting alone.
-/
import TypedRecords.Proofs.Query.WellFormed
import Mathlib.Data.List.Induction

namespace TypedRecords.Query

/-- A member, the identity or an attribute, by name, compared with a value. -/
structure KeyComparison where
  key : String
  op : Comparison
  operand : Operand

namespace KeyComparison

/-- The operator that a search names where a predicate makes the comparison. -/
def operator (k : KeyComparison) : Operator :=
  match k.op with
  | .eq => .equal
  | .ne => .notEqual
  | .gt => .greaterThan
  | .ge => .greaterEqual
  | .lt => .lessThan
  | .le => .lessEqual

/-- The key condition of a comparison. -/
def keyCondition (k : KeyComparison) : KeyCondition := ⟨k.key, k.operand, k.operator⟩

/-- The predicate of a comparison. -/
def predicate (k : KeyComparison) : Predicate := .compare [k.key] k.op k.operand

/-- The condition that a comparison stands for among the entities of a schema. -/
def condition (s : Schema) (k : KeyComparison) : Condition := k.keyCondition.condition s.resolveKey

end KeyComparison

/-- The conjunction of some comparisons, grouped to the left. -/
def Predicate.conjunction (first : KeyComparison) (rest : List KeyComparison) : Predicate :=
  rest.foldl (fun p k => .and p k.predicate) first.predicate

namespace Search

/-- The search with nothing asked but the state. -/
def cleared (search : Search) : Search := { search with predicate := none, conditions := [] }

/-- The search with one more key condition for each of some comparisons. -/
def withComparisons (search : Search) (ks : List KeyComparison) : Search :=
  ks.foldl (fun search k => search.withKey k.key k.operand k.operator) search

end Search

/-- Two page queries ask the same: they may differ in the shapes of their filters, and in nothing
else. -/
structure PageQuery.Agrees (q r : PageQuery) : Prop where
  /-- The filters hold under the same valuations of conditions. -/
  means : ∀ truth, filterHolds truth q.filter = filterHolds truth r.filter
  /-- The filters have the same conditions in the same order. -/
  conditions : q.conditions = r.conditions
  /-- Everything but the filter is the same. -/
  others : { q with filter := r.filter } = r

variable {catalog : Catalog} {s : Schema}

/-! ### The two filters -/

/-- The "and" of some conditions grouped to the left. -/
def nested (first : Condition) (rest : List Condition) : FilterChild :=
  rest.foldl (fun child c => .filter .and [child, .condition c]) (.condition first)

theorem withComparisons_eq (search : Search) (ks : List KeyComparison) :
    search.withComparisons ks
      = { search with conditions := search.conditions ++ ks.map KeyComparison.keyCondition } := by
  induction ks generalizing search with
  | nil =>
      rw [List.map_nil, List.append_nil]
      rfl
  | cons k ks ih =>
      show (search.withKey k.key k.operand k.operator).withComparisons ks = _
      rw [ih]
      simp only [Search.withKey, List.map_cons, List.append_assoc]
      rfl

/-- Key conditions stand side by side. -/
theorem keyFilter_withComparisons (search : Search) (s : Schema) (ks : List KeyComparison) :
    (search.cleared.withComparisons ks).keyFilter s.resolveKey
      = flat (ks.map (·.condition s)) := by
  rw [withComparisons_eq, keyFilter_eq]
  show flat ((ks.map KeyComparison.keyCondition).map _) = _
  rw [List.map_map]
  rfl

/-- A predicate's comparison is compiled to the operator that a search names for it. -/
theorem compiled_operator (k : KeyComparison) : k.op.operator = k.operator := by
  obtain ⟨key, op, operand⟩ := k
  cases op with
  | eq => rfl
  | ne => rfl
  | gt => rfl
  | ge => rfl
  | lt => rfl
  | le => rfl

/-- A comparison's predicate becomes the condition that it stands for. -/
theorem mirrors_predicate (k : KeyComparison) :
    k.predicate.Mirrors catalog s (.condition (k.condition s)) := by
  refine .leaf ?_
  unfold KeyComparison.condition KeyComparison.keyCondition
  rw [← compiled_operator]
  rfl

/-- One more comparison is one more "and" around what the predicate so far became. -/
theorem mirrors_foldl {ks : List KeyComparison} {p : Predicate} {child : FilterChild}
    (h : p.Mirrors catalog s child) :
    (ks.foldl (fun p k => .and p k.predicate) p).Mirrors catalog s
      ((ks.map (·.condition s)).foldl (fun child c => .filter .and [child, .condition c]) child) := by
  induction ks generalizing p child with
  | nil => exact h
  | cons k ks ih => exact ih (.and h (mirrors_predicate k))

/-- A conjunction becomes conditions grouped to the left. -/
theorem toFilter_conjunction (first : KeyComparison) (rest : List KeyComparison) :
    (Predicate.conjunction first rest).toFilter catalog s
      = .ok (nested (first.condition s) (rest.map (·.condition s))).toFilter := by
  have hmirrors : (Predicate.conjunction first rest).Mirrors catalog s
      (nested (first.condition s) (rest.map (·.condition s))) :=
    mirrors_foldl (mirrors_predicate first)
  exact map_eq_ok.mpr ⟨_, Predicate.child_of_mirrors hmirrors, rfl⟩

/-! ### What they ask -/

theorem nested_concat (first : Condition) (rest : List Condition) (c : Condition) :
    nested first (rest ++ [c]) = .filter .and [nested first rest, .condition c] := by
  unfold nested
  rw [List.foldl_append]
  rfl

theorem leaves_nested (first : Condition) (rest : List Condition) :
    (nested first rest).leaves = first :: rest := by
  induction rest using List.reverseRecOn with
  | nil => rfl
  | append_singleton rest c ih =>
      rw [nested_concat]
      show (nested first rest).leaves ++ [c] = _
      rw [ih]
      rfl

theorem holds_nested (first : Condition) (rest : List Condition) (truth : Condition → Bool) :
    (nested first rest).holds truth = (first :: rest).all truth := by
  induction rest using List.reverseRecOn with
  | nil => exact (Bool.and_true _).symm
  | append_singleton rest c ih =>
      rw [nested_concat, ← List.cons_append, List.all_append, ← ih]
      simp [FilterChild.holds, FilterChild.holdsEach, Junction.join]

theorem junction_nested (first : Condition) (rest : List Condition) :
    (nested first rest).toFilter.junction = .and := by
  cases rest using List.reverseRecOn with
  | nil => rfl
  | append_singleton rest c =>
      rw [nested_concat]
      rfl

theorem leaves_toFilter (child : FilterChild) : child.toFilter.leaves = child.leaves := by
  cases child with
  | condition c => rfl
  | filter junction children => rfl

theorem holds_toFilter (child : FilterChild) (truth : Condition → Bool) :
    child.toFilter.holds truth = child.holds truth := by
  cases child with
  | condition c => exact (holds_flat [c] truth).trans (Bool.and_true _)
  | filter junction children => rfl

/-- Up to the second condition there is nothing to group. -/
theorem nested_eq_flat_iff (first : Condition) (rest : List Condition) :
    (nested first rest).toFilter = flat (first :: rest) ↔ rest.length ≤ 1 := by
  cases rest using List.reverseRecOn with
  | nil => exact ⟨fun _ => by simp, fun _ => rfl⟩
  | append_singleton rest c =>
      rw [nested_concat]
      constructor
      · intro h
        -- grouped there are two children, side by side as many as there are conditions
        have hcount : 2 = (first :: (rest ++ [c])).length :=
          (congrArg (·.children.length) h).trans (List.length_map _)
        rw [List.length_cons] at hcount
        omega
      · intro hlength
        have hrest : rest = [] := by simpa using hlength
        rw [hrest]
        rfl

/-! ### The page queries -/

theorem toPageQuery_withComparisons (catalog : Catalog) (s : Schema) (search : Search)
    (ks : List KeyComparison) :
    (search.cleared.withComparisons ks).toPageQuery catalog s
      = .ok (search.request s (flat (ks.map (·.condition s)))) := by
  rw [← keyFilter_withComparisons search, toPageQuery_eq, withComparisons_eq]
  rfl

theorem toPageQuery_conjunction (catalog : Catalog) (s : Schema) (search : Search)
    (first : KeyComparison) (rest : List KeyComparison) :
    (search.cleared.satisfying (.conjunction first rest)).toPageQuery catalog s
      = .ok (search.request s (nested (first.condition s) (rest.map (·.condition s))).toFilter) := by
  rw [toPageQuery_eq]
  exact map_eq_ok.mpr ⟨_, toFilter_conjunction first rest, rfl⟩

theorem filterHolds_request (search : Search) (s : Schema) {f : Filter} (hf : f.junction = .and)
    (truth : Condition → Bool) :
    filterHolds truth (search.request s f).filter
      = (f.holds truth && (search.state.condition? s.stateField).all truth) :=
  (beside_withState s.stateField search.state f).holds_eq (fun _ => hf) truth

/-- The state comes last in an "and" that has conditions. -/
theorem withState_of_and (stateField : String) (state : StateFilter) {f : Filter}
    (hf : f.junction = .and) (hne : f.leaves ≠ []) :
    Search.withState stateField state f
      = some ⟨.and, f.children ++ (state.condition? stateField).toList.map .condition⟩ := by
  obtain ⟨junction, children⟩ := f
  cases hf
  cases state with
  | active => rfl
  | inactive => rfl
  | all =>
      cases children with
      | nil => exact absurd rfl hne
      | cons child rest => exact congrArg some (congrArg _ (List.append_nil _).symm)

/-- Two "and"s that have conditions make one page query only if they are one. -/
theorem request_inj_iff (search : Search) (s : Schema) {f g : Filter} (hf : f.junction = .and)
    (hg : g.junction = .and) (hfne : f.leaves ≠ []) (hgne : g.leaves ≠ []) :
    search.request s f = search.request s g ↔ f = g := by
  constructor
  · intro h
    have hfilter : Search.withState s.stateField search.state f
        = Search.withState s.stateField search.state g := congrArg PageQuery.filter h
    rw [withState_of_and _ _ hf hfne, withState_of_and _ _ hg hgne] at hfilter
    have hchildren := congrArg Filter.children (Option.some.inj hfilter)
    obtain ⟨junction, children⟩ := f
    obtain ⟨junction', children'⟩ := g
    cases hf
    cases hg
    exact congrArg (Filter.mk .and) (List.append_cancel_right hchildren)
  · intro h
    rw [h]

/--
**Key conditions and the conjunction of their comparisons ask the same.**

Whatever else a search has, and over any schema, both ways of asking for one or more comparisons have
a page query.  The conditions of both are those of the comparisons, in their order, and then the one
on the state; both filters hold under the same valuations; and the rest of the queries is the same.
The two are one query exactly when there are no more than two comparisons.
-/
theorem keys_agree_with_conjunction (catalog : Catalog) (s : Schema) (search : Search)
    (first : KeyComparison) (rest : List KeyComparison) :
    ∃ q r,
      (search.cleared.withComparisons (first :: rest)).toPageQuery catalog s = .ok q ∧
      (search.cleared.satisfying (.conjunction first rest)).toPageQuery catalog s = .ok r ∧
      q.Agrees r ∧
      q.conditions = (first :: rest).map (·.condition s)
        ++ (search.state.condition? s.stateField).toList ∧
      (q = r ↔ rest.length ≤ 1) := by
  refine ⟨_, _, toPageQuery_withComparisons catalog s search (first :: rest),
    toPageQuery_conjunction catalog s search first rest, ⟨?_, ?_, rfl⟩, ?_, ?_⟩
  · intro truth
    rw [filterHolds_request search s rfl, filterHolds_request search s (junction_nested ..),
      holds_flat, holds_toFilter, holds_nested]
    rfl
  · rw [conditions_request, conditions_request, leaves_flat, leaves_toFilter, leaves_nested]
    rfl
  · rw [conditions_request, leaves_flat]
  · rw [request_inj_iff search s rfl (junction_nested ..) (by simp [leaves_flat])
      (by simp [leaves_toFilter, leaves_nested]), eq_comm, List.map_cons, nested_eq_flat_iff,
      List.length_map]

/-- The active accounts of one name that have more than five employees and at most nine. -/
def sizedByKeys : Search :=
  (({} : Search).withKey "name" (.literal (.string "Alpha")) .equal).withKey
    "employees" (.literal (.int 5)) .greaterThan |>.withKey
    "employees" (.literal (.int 9)) .lessEqual

/-- The same accounts, by a predicate. -/
def sizedByPredicate : Search :=
  ({} : Search).satisfying
    (.and
      (.and (.compare ["name"] .eq (.literal (.string "Alpha")))
        (.compare ["employees"] .gt (.literal (.int 5))))
      (.compare ["employees"] .le (.literal (.int 9))))

/-- Three comparisons ask the same both ways, by two different queries. -/
theorem keys_agree_with_conjunction_sized :
    ∃ q r, sizedByKeys.toPageQuery accounts accountSchema = .ok q ∧
      sizedByPredicate.toPageQuery accounts accountSchema = .ok r ∧
      q.Agrees r ∧
      q.conditions
        = [.compare "name" .equal "Alpha", .compare "numberofemployees" .greaterThan "5",
            .compare "numberofemployees" .lessEqual "9", .compare "accountstate" .equal "0"] ∧
      q ≠ r := by
  obtain ⟨q, r, hq, hr, hagrees, hconditions, hone⟩ :=
    keys_agree_with_conjunction accounts accountSchema {}
      ⟨"name", .eq, .literal (.string "Alpha")⟩
      [⟨"employees", .gt, .literal (.int 5)⟩, ⟨"employees", .le, .literal (.int 9)⟩]
  exact ⟨q, r, hq, hr, hagrees, hconditions, fun h => absurd (hone.mp h) (by decide)⟩

end TypedRecords.Query
