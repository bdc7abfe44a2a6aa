/-
Searches: what to look for among the entities of a type, and the page query that asks for it.

A search has a predicate or a list of key conditions, an order, columns, a page, and the lifecycle
states to include.  The predicate, when there is one, takes the key conditions' place.  The state
becomes a condition beside the rest: it joins an "and" at its end, and an "or" is kept whole as the
first child of a new "and".  All joined links are joined.
-/
import TypedRecords.Query.PageQuery
import TypedRecords.Query.Predicate

namespace TypedRecords.Query

/-- The lifecycle states to include. -/
inductive StateFilter where
  | active
  | inactive
  | all
deriving DecidableEq, Inhabited

/-- The state that a state filter asks for. -/
def StateFilter.state? : StateFilter → Option Lifecycle
  | active => some .active
  | inactive => some .inactive
  | all => none

/-- A condition on a member, the identity or an attribute, by name. -/
structure KeyCondition where
  key : String
  operand : Operand
  operator : Operator
deriving Inhabited

/-- What to look for: at first, the first page of the active entities. -/
structure Search where
  predicate : Option Predicate := none
  conditions : List KeyCondition := []
  /-- The keys to sort by, each with whether it descends. -/
  order : List (String × Bool) := []
  columns : Option (List String) := none
  page : UInt32 := 1
  pageSize : UInt32 := defaultPageSize
  distinct : Bool := false
  noLock : Bool := true
  state : StateFilter := .active
deriving Inhabited

namespace Search

/-! ### Building -/

/-- Looks for what satisfies a predicate. -/
def satisfying (s : Search) (p : Predicate) : Search := { s with predicate := some p }

/-- Adds a key condition. -/
def withKey (s : Search) (key : String) (operand : Operand) (operator : Operator) : Search :=
  { s with conditions := s.conditions ++ [⟨key, operand, operator⟩] }

/-- Adds a key condition of equality. -/
def withKeyEqual (s : Search) (key : String) (operand : Operand) : Search :=
  s.withKey key operand .equal

/-- Sorts by a key after the keys given before. -/
def orderBy (s : Search) (key : String) (descending : Bool) : Search :=
  { s with order := s.order ++ [(key, descending)] }

/-- Returns only some columns. -/
def select (s : Search) (keys : List String) : Search := { s with columns := some keys }

/-- Asks for a page. -/
def atPage (s : Search) (page pageSize : UInt32) : Search := { s with page, pageSize }

/-! ### The page query -/

/-- The conjunction of the key conditions, each key resolved by `resolveKey`. -/
def keyFilter (s : Search) (resolveKey : String → String) : Filter :=
  ⟨.and, s.conditions.map fun c =>
    .condition (.ofScalar ⟨resolveKey c.key, none⟩ c.operator c.operand.value)⟩

/-- The filter with the condition on the state beside it, none when nothing is asked. -/
def withState (stateField : String) (state : StateFilter) (filter : Filter) : Option Filter :=
  match state.state? with
  | none => if filter.isEmpty then none else some filter
  | some state =>
    let condition := Condition.compare stateField .equal (Text.intText state.code.toInt)
    match filter.junction with
    | .and => some (filter.withCondition condition)
    | .or => some ((({} : Filter).withFilter filter).withCondition condition)

/-- The parts of the page query that need no schema. -/
def basis (s : Search) (entity : String) (resolveKey : String → String) : PageQuery :=
  { ({ entity : PageQuery }).atPage s.page s.pageSize with
    distinct := s.distinct
    noLock := s.noLock
    countTotal := true
    order := s.order.map fun (key, descending) => ⟨resolveKey key, descending⟩
    columns := match s.columns with
      | some keys => .named (keys.map resolveKey)
      | none => .all }

/-- The page query of a search among the entities of a mapped type. -/
def toPageQuery (s : Search) (catalog : Catalog) (schema : Schema) :
    Except CompileError PageQuery := do
  let filter ← match s.predicate with
    | some p => p.toFilter catalog schema
    | none => pure (s.keyFilter schema.resolveKey)
  return { s.basis schema.entity schema.resolveKey with
    filter := withState schema.stateField s.state filter
    joins := schema.joinedLinks.map fun link =>
      { child := link.childEntity, childField := link.childField, parentField := link.sourceField }
    verbatim := schema.verbatim }

/-- The page query of a search among records of an entity that no type is mapped to: keys are
attributes, and there is no predicate. -/
def toUntypedPageQuery (s : Search) (entity : String) : Except CompileError PageQuery :=
  match s.predicate with
  | some _ => .error (.unmappedEntity entity)
  | none => .ok { s.basis entity id with
      filter := withState defaultStateField s.state (s.keyFilter id) }

/-- The types that making the page query asks for. -/
def asks (s : Search) (catalog : Catalog) (schema : Schema) : List TypeName :=
  match s.predicate with
  | some p => p.asks catalog schema
  | none => []

end Search

end TypedRecords.Query
