/-
What a search's filter asks.

A search asks two things of a record: its body, which is the predicate when there is one and
otherwise all of the key conditions, and its state.  `Beside` says how the two stand in one filter:
the condition on the state comes last under an "and", and a body that is an "or" is kept whole as
the first child of a new "and", so that the state is never one alternative among others.  The
meaning follows from that shape alone.
-/
import TypedRecords.Proofs.Query.Compile
import TypedRecords.Query.Search

namespace TypedRecords.Query

/-- The meaning of a filter that may be missing: nothing is asked then. -/
def filterHolds (truth : Condition → Bool) (f : Option Filter) : Bool :=
  f.all (·.holds truth)

/-- The condition that a state filter puts on the state attribute. -/
def StateFilter.condition? (stateField : String) : StateFilter → Option Condition
  | active => some (.compare stateField .equal "0")
  | inactive => some (.compare stateField .equal "1")
  | all => none

/-- The condition that a key condition stands for. -/
def KeyCondition.condition (resolveKey : String → String) (c : KeyCondition) : Condition :=
  .ofScalar ⟨resolveKey c.key, none⟩ c.operator c.operand.value

/-- What a search asks besides the state. -/
def Search.body (catalog : Catalog) (schema : Schema) (truth : Condition → Bool) (s : Search) :
    Bool :=
  match s.predicate with
  | some p => p.holds (Predicate.leafTruth catalog schema truth)
  | none => s.conditions.all fun c => truth (c.condition schema.resolveKey)

/-! ### A condition beside a filter -/

/-- How a filter and a condition that may be missing stand together. -/
inductive Beside : Option Condition → Filter → Option Filter → Prop
  | nothing {junction : Junction} : Beside none ⟨junction, []⟩ none
  | alone {junction : Junction} {children : List FilterChild} (h : children ≠ []) :
      Beside none ⟨junction, children⟩ (some ⟨junction, children⟩)
  | and {c : Condition} {children : List FilterChild} :
      Beside (some c) ⟨.and, children⟩ (some ⟨.and, children ++ [.condition c]⟩)
  | or {c : Condition} {children : List FilterChild} :
      Beside (some c) ⟨.or, children⟩ (some ⟨.and, [.filter .or children, .condition c]⟩)

theorem beside_withState (stateField : String) (state : StateFilter) (f : Filter) :
    Beside (state.condition? stateField) f (Search.withState stateField state f) := by
  obtain ⟨junction, children⟩ := f
  cases state with
  | all =>
      cases children with
      | nil => exact .nothing
      | cons child rest => exact .alone (by simp)
  | active =>
      cases junction with
      | and => exact .and
      | or => exact .or
  | inactive =>
      cases junction with
      | and => exact .and
      | or => exact .or

/-- An "and" holds when all its children do. -/
theorem holds_and (truth : Condition → Bool) (children : List FilterChild) :
    Filter.holds truth ⟨.and, children⟩ = children.all (·.holds truth) := by
  show Junction.join .and (FilterChild.holdsEach truth children) = _
  rw [FilterChild.holdsEach_eq_map]
  simp [Junction.join]

/-- The two together hold when both do.  An empty "or" is left out: it never holds, and without a
condition beside it, it would be dropped. -/
theorem Beside.holds_eq {c : Option Condition} {f : Filter} {g : Option Filter}
    (h : Beside c f g) (hf : f.children = [] → f.junction = .and) (truth : Condition → Bool) :
    filterHolds truth g = (f.holds truth && c.all truth) := by
  cases h with
  | @nothing junction =>
      have hj : junction = .and := hf rfl
      subst hj
      rfl
  | alone _ => simp [filterHolds]
  | and =>
      rw [holds_and]
      simp [filterHolds, holds_and, FilterChild.holds]
  | or =>
      simp only [filterHolds, Option.all_some, holds_and]
      simp [FilterChild.holds, Filter.holds, Filter.asChild]

/-! ### The body -/

/-- A compiled predicate has at least one child. -/
theorem Predicate.MirrorsRoot.children_ne_nil {catalog : Catalog} {s : Schema} {p : Predicate}
    {f : Filter} (h : p.MirrorsRoot catalog s f) : f.children ≠ [] := by
  cases h with
  | leaf hc => simp
  | node hm =>
      cases hm with
      | and hl hr => simp
      | or hl hr => simp

/-- The "and" of some conditions side by side. -/
def flat (conditions : List Condition) : Filter := ⟨.and, conditions.map .condition⟩

theorem holds_flat (conditions : List Condition) (truth : Condition → Bool) :
    (flat conditions).holds truth = conditions.all truth := by
  unfold flat
  rw [holds_and, List.all_map]
  rfl

theorem leaves_flat (conditions : List Condition) : (flat conditions).leaves = conditions := by
  show FilterChild.leavesEach (conditions.map .condition) = conditions
  rw [FilterChild.leavesEach_eq_flatMap, List.flatMap_map]
  exact List.flatMap_singleton' conditions

/-- Key conditions stand side by side. -/
theorem keyFilter_eq (s : Search) (resolveKey : String → String) :
    s.keyFilter resolveKey = flat (s.conditions.map (·.condition resolveKey)) := by
  unfold flat
  rw [List.map_map]
  rfl

theorem keyFilter_holds (s : Search) (resolveKey : String → String) (truth : Condition → Bool) :
    (s.keyFilter resolveKey).holds truth
      = s.conditions.all fun c => truth (c.condition resolveKey) := by
  rw [keyFilter_eq, holds_flat, List.all_map]
  rfl

/-- The filter of what a search asks besides the state. -/
def Search.bodyFilter (catalog : Catalog) (schema : Schema) (s : Search) :
    Except CompileError Filter :=
  match s.predicate with
  | some p => p.toFilter catalog schema
  | none => .ok (s.keyFilter schema.resolveKey)

/-! ### The page query -/

theorem compile_of_schema {catalog : Catalog} {type : TypeName} {schema : Schema}
    (hs : catalog.schema? type = some schema) (p : Predicate) :
    compile catalog type p = p.toFilter catalog schema := by
  unfold compile
  rw [hs]

/-- The page query of a search with a filter for what it asks besides the state. -/
def Search.request (s : Search) (schema : Schema) (f : Filter) : PageQuery :=
  { s.basis schema.entity schema.resolveKey with
    filter := withState schema.stateField s.state f
    joins := schema.joinedLinks.map fun link =>
      { child := link.childEntity, childField := link.childField, parentField := link.sourceField }
    verbatim := schema.verbatim }

/-- Only the body can keep a search from having a page query. -/
theorem toPageQuery_eq (catalog : Catalog) (schema : Schema) (s : Search) :
    s.toPageQuery catalog schema = s.request schema <$> s.bodyFilter catalog schema := by
  unfold Search.toPageQuery Search.bodyFilter
  cases s.predicate with
  | none => rfl
  | some p => cases p.toFilter catalog schema <;> rfl

/-- A page query over a schema asks for the schema's entity and joins all its joined links. -/
theorem joins_of_toPageQuery {catalog : Catalog} {schema : Schema} {s : Search} {q : PageQuery}
    (h : s.toPageQuery catalog schema = .ok q) :
    q.entity = schema.entity ∧ q.joins = schema.joinedLinks.map fun link =>
      { child := link.childEntity, childField := link.childField,
        parentField := link.sourceField } := by
  rw [toPageQuery_eq, map_eq_ok] at h
  obtain ⟨f, -, rfl⟩ := h
  exact ⟨rfl, rfl⟩

/-- A search whose predicate compiles has a page query, with the state beside the predicate. -/
theorem toPageQuery_of_predicate {catalog : Catalog} {schema : Schema} {s : Search}
    {p : Predicate} {f : Filter} (hp : s.predicate = some p)
    (hf : p.toFilter catalog schema = .ok f) :
    ∃ q, s.toPageQuery catalog schema = .ok q ∧
      q.filter = Search.withState schema.stateField s.state f := by
  have hbody : s.bodyFilter catalog schema = .ok f := by
    unfold Search.bodyFilter
    rw [hp]
    exact hf
  exact ⟨s.request schema f, by rw [toPageQuery_eq, hbody]; rfl, rfl⟩

/-- A search without a predicate has a page query, with the state beside its key conditions. -/
theorem toPageQuery_of_keys (catalog : Catalog) (schema : Schema) {s : Search}
    (hp : s.predicate = none) :
    ∃ q, s.toPageQuery catalog schema = .ok q ∧
      q.filter = Search.withState schema.stateField s.state (s.keyFilter schema.resolveKey) := by
  have hbody : s.bodyFilter catalog schema = .ok (s.keyFilter schema.resolveKey) := by
    unfold Search.bodyFilter
    rw [hp]
  exact ⟨s.request schema _, by rw [toPageQuery_eq, hbody]; rfl, rfl⟩

/-- A search for records of an entity without a type: the keys stand for themselves. -/
theorem toUntypedPageQuery_of_keys {s : Search} (hp : s.predicate = none) (entity : String) :
    ∃ q, s.toUntypedPageQuery entity = .ok q ∧
      q.filter = Search.withState "statecode" s.state (s.keyFilter id) := by
  unfold Search.toUntypedPageQuery
  simp only [hp]
  exact ⟨_, rfl, rfl⟩

/-- With a predicate, the key conditions are not looked at. -/
theorem toPageQuery_ignores_keys {catalog : Catalog} {schema : Schema} {s : Search}
    {p : Predicate} (hp : s.predicate = some p) (conditions : List KeyCondition) :
    { s with conditions }.toPageQuery catalog schema = s.toPageQuery catalog schema := by
  unfold Search.toPageQuery
  simp only [hp]
  rfl

/-- The filter of a search over a mapped type, from the filter of its body. -/
structure AsksBodyAndState (catalog : Catalog) (type : TypeName) (schema : Schema) (s : Search)
    (q : PageQuery) (base : Filter) : Prop where
  /-- The body's filter is the compiled predicate. -/
  predicate : ∀ p, s.predicate = some p → compile catalog type p = .ok base
  /-- Without a predicate it is the "and" of the key conditions, in order. -/
  keys : s.predicate = none →
    base = ⟨.and, s.conditions.map fun c => .condition (c.condition schema.resolveKey)⟩
  /-- The state stands beside it, and it is otherwise unchanged. -/
  beside : Beside (s.state.condition? schema.stateField) base q.filter
  /-- The filter holds when both the body and the condition on the state do. -/
  means : ∀ truth, filterHolds truth q.filter
    = (s.body catalog schema truth && (s.state.condition? schema.stateField).all truth)
  /-- With a predicate, no other key conditions would make another query. -/
  ignores : s.predicate.isSome →
    ∀ conditions, { s with conditions }.toPageQuery catalog schema = .ok q

theorem asksBodyAndState_of_predicate {catalog : Catalog} {type : TypeName} {schema : Schema}
    (hs : catalog.schema? type = some schema) {s : Search} {p : Predicate} {f : Filter}
    (hp : s.predicate = some p) (hf : compile catalog type p = .ok f) :
    ∃ q, s.toPageQuery catalog schema = .ok q ∧
      AsksBodyAndState catalog type schema s q f := by
  have hfilter : p.toFilter catalog schema = .ok f := compile_of_schema hs p ▸ hf
  have hroot : p.MirrorsRoot catalog schema f := Predicate.toFilter_eq_ok_iff.mp hfilter
  obtain ⟨q, hq, hqf⟩ := toPageQuery_of_predicate hp hfilter
  have hbeside : Beside (s.state.condition? schema.stateField) f q.filter :=
    hqf ▸ beside_withState ..
  refine ⟨q, hq, ?_, ?_, hbeside, ?_, ?_⟩
  · intro p' hp'
    rw [hp] at hp'
    cases hp'
    exact hf
  · intro hnone
    rw [hp] at hnone
    cases hnone
  · intro truth
    rw [hbeside.holds_eq (fun h => absurd h hroot.children_ne_nil), hroot.holds_eq]
    simp only [Search.body, hp]
  · intro _ conditions
    rw [toPageQuery_ignores_keys hp]
    exact hq

theorem asksBodyAndState_of_keys {catalog : Catalog} {type : TypeName} {schema : Schema}
    {s : Search} (hp : s.predicate = none) :
    ∃ q base, s.toPageQuery catalog schema = .ok q ∧
      AsksBodyAndState catalog type schema s q base := by
  obtain ⟨q, hq, hqf⟩ := toPageQuery_of_keys catalog schema hp
  have hbeside : Beside (s.state.condition? schema.stateField) (s.keyFilter schema.resolveKey)
      q.filter := hqf ▸ beside_withState ..
  refine ⟨q, s.keyFilter schema.resolveKey, hq, ?_, fun _ => rfl, hbeside, ?_, ?_⟩
  · intro p hp'
    rw [hp] at hp'
    cases hp'
  · intro truth
    rw [hbeside.holds_eq (fun _ => rfl), keyFilter_holds]
    simp only [Search.body, hp]
  · intro hsome
    rw [hp] at hsome
    cases hsome

/--
**A search asks its body and its state, and nothing else.**

Over a mapped type, a search whose predicate compiles, if it has one, has a page query whose filter
holds exactly when the body and the condition on the state do.  Over an entity without a type the
keys stand for themselves and the state attribute has its default name.
-/
theorem search_asks_body_and_state (s : Search) :
    (∀ catalog type schema, catalog.schema? type = some schema →
      (∀ p, s.predicate = some p → ∃ f, compile catalog type p = .ok f) →
      ∃ q base, s.toPageQuery catalog schema = .ok q ∧
        AsksBodyAndState catalog type schema s q base) ∧
    (∀ entity, s.predicate = none →
      ∃ q, s.toUntypedPageQuery entity = .ok q ∧
        Beside (s.state.condition? "statecode")
          ⟨.and, s.conditions.map fun c => .condition (c.condition id)⟩ q.filter ∧
        ∀ truth, filterHolds truth q.filter
          = (s.conditions.all (fun c => truth (c.condition id))
              && (s.state.condition? "statecode").all truth)) := by
  constructor
  · intro catalog type schema hs hcompiles
    cases hp : s.predicate with
    | some p =>
        obtain ⟨f, hf⟩ := hcompiles p hp
        obtain ⟨q, hq, hasks⟩ := asksBodyAndState_of_predicate hs hp hf
        exact ⟨q, f, hq, hasks⟩
    | none => exact asksBodyAndState_of_keys hp
  · intro entity hp
    obtain ⟨q, hq, hqf⟩ := toUntypedPageQuery_of_keys hp entity
    have hbeside : Beside (s.state.condition? "statecode") (s.keyFilter id) q.filter :=
      hqf ▸ beside_withState ..
    refine ⟨q, hq, hbeside, ?_⟩
    intro truth
    rw [hbeside.holds_eq (fun _ => rfl), keyFilter_holds]

/-- A catalog of accounts, which have a state attribute of their own. -/
def accounts : Catalog where
  describe _ :=
    { names := ["account"]
      declarations :=
        [.scalar ⟨"name", .plain .string⟩ "name" "name",
          .scalar ⟨"size", .optional .int32⟩ "employees" "numberofemployees",
          .stateCodeNamed "accountstate"] }

/-- The schema of accounts. -/
def accountSchema : Schema :=
  .ofDeclarations accounts.names (accounts.names "Account")
    (accounts.describe "Account").declarations

/-- Inactive accounts of one name, or of another and of some size. -/
def namedOrSized : Search where
  predicate := some
    (.or (.compare ["name"] .eq (.literal (.string "Alpha")))
      (.and (.call ["name"] "starts_with" [.literal (.string "Be")])
        (.compare ["employees"] .gt (.literal (.int 5)))))
  conditions := [⟨"name", .literal (.string "Gamma"), .equal⟩]
  state := .inactive

theorem search_asks_body_and_state_inactive :
    accounts.schema? "Account" = some accountSchema ∧
    (∀ p, namedOrSized.predicate = some p → ∃ f, compile accounts "Account" p = .ok f) ∧
    ∃ q base, namedOrSized.toPageQuery accounts accountSchema = .ok q ∧
      AsksBodyAndState accounts "Account" accountSchema namedOrSized q base := by
  have hs : accounts.schema? "Account" = some accountSchema := rfl
  have hcompiles : ∀ p, namedOrSized.predicate = some p →
      ∃ f, compile accounts "Account" p = .ok f := by
    intro p hp
    cases hp
    exact ⟨_, rfl⟩
  exact ⟨hs, hcompiles,
    (search_asks_body_and_state namedOrSized).1 accounts "Account" accountSchema hs hcompiles⟩

end TypedRecords.Query
