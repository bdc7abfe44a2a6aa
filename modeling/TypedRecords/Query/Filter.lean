/-
Filters: trees of conditions joined by "and" and "or".

A condition compares one attribute with a value given as text; a null check has no value.  A filter
joins its children, conditions and further filters in order, by one junction.  Its meaning under a
truth assignment to conditions is the conjunction or the disjunction of its children's meanings, so
an empty "and" holds and an empty "or" does not.
-/
namespace TypedRecords.Query

/-- How a filter joins its children. -/
inductive Junction where
  | and
  | or
deriving DecidableEq, Inhabited

/-- The word for a junction. -/
def Junction.token : Junction → String
  | .and => "and"
  | .or => "or"

/-- The comparisons a store understands. -/
inductive Operator where
  | equal
  | notEqual
  | greaterThan
  | greaterEqual
  | lessThan
  | lessEqual
  | like
  | notLike
  | isIn
  | notIn
  | null
  | notNull
  | beginsWith
  | endsWith
  | containValues
deriving DecidableEq, Inhabited

namespace Operator

/-- The word for an operator. -/
def token : Operator → String
  | equal => "eq"
  | notEqual => "ne"
  | greaterThan => "gt"
  | greaterEqual => "ge"
  | lessThan => "lt"
  | lessEqual => "le"
  | like => "like"
  | notLike => "not-like"
  | isIn => "in"
  | notIn => "not-in"
  | null => "null"
  | notNull => "not-null"
  | beginsWith => "begins-with"
  | endsWith => "ends-with"
  | containValues => "contain-values"

/-- The operator takes no value. -/
def isNullCheck (o : Operator) : Bool := o = null || o = notNull

end Operator

/-- A comparison of one attribute. -/
structure Condition where
  attr : String
  operator : Operator
  /-- The value's text; none for a null check. -/
  value : Option String := none
  /-- The entity a lookup value points at. -/
  lookupEntity : Option String := none
  /-- The alias of the joined entity that has the attribute. -/
  entityAlias : Option String := none
deriving DecidableEq, Inhabited

namespace Condition

/-- A comparison with a value. -/
def compare (attr : String) (operator : Operator) (value : String) : Condition :=
  { attr, operator, value := some value }

/-- A check that the attribute is null. -/
def null (attr : String) : Condition := { attr, operator := .null }

/-- A check that the attribute is not null. -/
def notNull (attr : String) : Condition := { attr, operator := .notNull }

end Condition

/-- A child of a filter: a condition, or a further filter with its own junction and children. -/
inductive FilterChild where
  | condition (c : Condition)
  | filter (junction : Junction) (children : List FilterChild)
deriving Inhabited

/-- A filter. -/
structure Filter where
  junction : Junction := .and
  children : List FilterChild := []
deriving Inhabited

mutual

/-- Equality of children is decided by walking both. -/
def FilterChild.decEq : (a b : FilterChild) → Decidable (a = b)
  | .condition c, .condition d =>
    if h : c = d then .isTrue (by rw [h]) else .isFalse (by simpa using h)
  | .filter j cs, .filter k ds =>
    if hj : j = k then
      match FilterChild.decEqList cs ds with
      | .isTrue hc => .isTrue (by rw [hj, hc])
      | .isFalse hc => .isFalse (by simpa using fun _ => hc)
    else .isFalse (by simpa using fun h => absurd h hj)
  | .condition _, .filter _ _ => .isFalse (by simp)
  | .filter _ _, .condition _ => .isFalse (by simp)

/-- Equality of lists of children is decided child by child. -/
def FilterChild.decEqList : (as bs : List FilterChild) → Decidable (as = bs)
  | [], [] => .isTrue rfl
  | [], _ :: _ => .isFalse (by simp)
  | _ :: _, [] => .isFalse (by simp)
  | a :: as, b :: bs =>
    match FilterChild.decEq a b, FilterChild.decEqList as bs with
    | .isTrue ha, .isTrue hs => .isTrue (by rw [ha, hs])
    | .isFalse ha, _ => .isFalse (by simpa using fun h => absurd h ha)
    | _, .isFalse hs => .isFalse (by simpa using fun _ => hs)

end

instance : DecidableEq FilterChild := FilterChild.decEq

deriving instance DecidableEq for Filter

/-! ### Building -/

namespace Filter

/-- A filter as a child of another. -/
def asChild (f : Filter) : FilterChild := .filter f.junction f.children

/-- A filter with a condition added at the end. -/
def withCondition (f : Filter) (c : Condition) : Filter :=
  { f with children := f.children ++ [.condition c] }

/-- A filter with a nested filter added at the end. -/
def withFilter (f g : Filter) : Filter :=
  { f with children := f.children ++ [g.asChild] }

/-- The filter has no children. -/
def isEmpty (f : Filter) : Bool := f.children.isEmpty

/-- The conditions directly under a filter. -/
def conditions (f : Filter) : List Condition :=
  f.children.filterMap fun
    | .condition c => some c
    | .filter .. => none

/-- The filters directly under a filter. -/
def filters (f : Filter) : List Filter :=
  f.children.filterMap fun
    | .condition _ => none
    | .filter junction children => some ⟨junction, children⟩

end Filter

/-! ### Meaning -/

/-- Joins truth values. -/
def Junction.join : Junction → List Bool → Bool
  | .and, bs => bs.all id
  | .or, bs => bs.any id

mutual

/-- The meaning of a child when `truth` says which conditions hold. -/
def FilterChild.holds (truth : Condition → Bool) : FilterChild → Bool
  | .condition c => truth c
  | .filter junction children => junction.join (FilterChild.holdsEach truth children)

/-- The meanings of children in order. -/
def FilterChild.holdsEach (truth : Condition → Bool) : List FilterChild → List Bool
  | [] => []
  | child :: rest => child.holds truth :: FilterChild.holdsEach truth rest

end

mutual

/-- All conditions of a child at every depth, from left to right. -/
def FilterChild.leaves : FilterChild → List Condition
  | .condition c => [c]
  | .filter _ children => FilterChild.leavesEach children

/-- All conditions of children at every depth, from left to right. -/
def FilterChild.leavesEach : List FilterChild → List Condition
  | [] => []
  | child :: rest => child.leaves ++ FilterChild.leavesEach rest

end

namespace Filter

/-- The meaning of a filter when `truth` says which conditions hold. -/
def holds (truth : Condition → Bool) (f : Filter) : Bool := f.asChild.holds truth

/-- All conditions of a filter at every depth, from left to right. -/
def leaves (f : Filter) : List Condition := f.asChild.leaves

end Filter

theorem FilterChild.holdsEach_eq_map (truth : Condition → Bool) (children : List FilterChild) :
    FilterChild.holdsEach truth children = children.map (·.holds truth) := by
  induction children with
  | nil => rfl
  | cons child rest ih => rw [FilterChild.holdsEach, ih, List.map_cons]

theorem FilterChild.leavesEach_eq_flatMap (children : List FilterChild) :
    FilterChild.leavesEach children = children.flatMap (·.leaves) := by
  induction children with
  | nil => rfl
  | cons child rest ih => rw [FilterChild.leavesEach, ih, List.flatMap_cons]

end TypedRecords.Query
