/-
Predicates over an entity's members, and the filters they compile to.

A predicate is a tree of comparisons and method calls under "and", "or" and "not".  Compiling keeps
the tree: each "and" and "or" becomes a filter of the same junction with two children in order, each
leaf one condition.  Negation and bare members have no condition; of the methods three have.  A
comparison with null becomes a null check.
-/
import TypedRecords.Query.Filter
import TypedRecords.Query.Path

namespace TypedRecords.Query

/-- The comparisons of the predicate language. -/
inductive Comparison where
  | eq
  | ne
  | gt
  | ge
  | lt
  | le
deriving DecidableEq, Inhabited

/-- The operator of a comparison. -/
def Comparison.operator : Comparison → Operator
  | eq => .equal
  | ne => .notEqual
  | gt => .greaterThan
  | ge => .greaterEqual
  | lt => .lessThan
  | le => .lessEqual

/-- What a member is compared with. -/
inductive Operand where
  | literal (s : Scalar)
  /-- Computed when the predicate is compiled. -/
  | deferred (compute : Unit → Scalar)
deriving Inhabited

namespace Operand

/-- The operand's value. -/
def value : Operand → Scalar
  | literal s => s
  | deferred compute => compute ()

/-- A member's value as an operand. -/
def ofMember {α : Type} [Member α] (a : α) : Operand := .literal (Member.toScalar a)

end Operand

/-- A predicate. -/
inductive Predicate where
  | and (left right : Predicate)
  | or (left right : Predicate)
  | not (inner : Predicate)
  /-- The member at `path` compared with a value. -/
  | compare (path : List String) (op : Comparison) (operand : Operand)
  /-- A method of the member at `path`. -/
  | call (path : List String) (method : String) (args : List Operand)
  /-- The member at `path` taken for a truth value. -/
  | member (path : List String)
deriving Inhabited

namespace Predicate

/-- The predicate is an "and" or an "or". -/
def isLogical : Predicate → Bool
  | and .. | or .. => true
  | _ => false

/-- The member is null. -/
def isNull (path : List String) : Predicate := .compare path .eq (.literal .null)

/-- The member is not null. -/
def isNotNull (path : List String) : Predicate := .compare path .ne (.literal .null)

/-- The value of a predicate when `truth` says what holds below "and" and "or". -/
def holds (truth : Predicate → Bool) : Predicate → Bool
  | and left right => left.holds truth && right.holds truth
  | or left right => left.holds truth || right.holds truth
  | p => truth p

/-- What stands below "and" and "or", from left to right. -/
def leaves : Predicate → List Predicate
  | and left right | or left right => left.leaves ++ right.leaves
  | p => [p]

end Predicate

/-! ### Conditions -/

/-- The condition that compares an attribute with a scalar.  With null, "differs" and "is not null"
become "is not null" and all else becomes "is null". -/
def Condition.ofScalar (field : ResolvedField) (operator : Operator) (s : Scalar) : Condition :=
  if s.isNull then
    { attr := field.attr
      operator := if operator = .notEqual ∨ operator = .notNull then .notNull else .null
      entityAlias := field.joinName }
  else
    { attr := field.attr, operator, value := s.conditionValue.1, lookupEntity := s.conditionValue.2
      entityAlias := field.joinName }

/-- The operator of a method. -/
def methodOperator : String → Except CompileError Operator
  | "starts_with" => .ok .beginsWith
  | "ends_with" => .ok .endsWith
  | "contains" => .ok .containValues
  | method => .error (.unsupportedMethod method)

/-- The argument of a method, which takes one. -/
def soleArgument (method : String) : List Operand → Except CompileError Operand
  | [argument] => .ok argument
  | args =>
    .error (.invalidArgument method ("expected 1 argument, got " ++ Nat.repr args.length))

/-! ### Compiling -/

/-- The path, operator and value of a leaf that has a condition. -/
def Predicate.leaf : Predicate → Except CompileError (List String × Operator × Scalar)
  | .compare path op operand => .ok (path, op.operator, operand.value)
  | .call path method args => do
    let operator ← methodOperator method
    let argument ← soleArgument method args
    return (path, operator, argument.value)
  | .not _ => .error .negation
  | .member path => .error (.bareMember path)
  | .and .. | .or .. => .error (.unsupportedExpression "nested logical node as leaf")

/-- The condition of a leaf. -/
def Predicate.condition (catalog : Catalog) (s : Schema) (p : Predicate) :
    Except CompileError Condition := do
  let (path, operator, value) ← p.leaf
  let field ← resolve catalog s path
  return .ofScalar field operator value

/-- What a predicate becomes inside a filter. -/
def Predicate.child (catalog : Catalog) (s : Schema) : Predicate → Except CompileError FilterChild
  | .and left right => do
    return .filter .and [← left.child catalog s, ← right.child catalog s]
  | .or left right => do
    return .filter .or [← left.child catalog s, ← right.child catalog s]
  | p => .condition <$> p.condition catalog s

/-- A child as a filter of its own: a condition stands alone under an "and". -/
def FilterChild.toFilter : FilterChild → Filter
  | .condition c => ⟨.and, [.condition c]⟩
  | .filter junction children => ⟨junction, children⟩

/-- The filter of a predicate over the members of a schema. -/
def Predicate.toFilter (catalog : Catalog) (s : Schema) (p : Predicate) :
    Except CompileError Filter :=
  FilterChild.toFilter <$> p.child catalog s

/-- The filter of a predicate over a type's members; an unmapped type has none. -/
def compile (catalog : Catalog) (type : TypeName) (p : Predicate) : Except CompileError Filter :=
  match catalog.schema? type with
  | none => .error (.unmappedEntity type)
  | some s => p.toFilter catalog s

/-- The types whose schemas a leaf asks for when it compiles. -/
def Predicate.leafAsks (s : Schema) (p : Predicate) : List TypeName :=
  match p.leaf with
  | .error _ => []
  | .ok (path, _) =>
    match locate s path with
    | .error _ => []
    | .ok location => location.asks

/-- The types that compiling a predicate asks for: up to the first leaf that fails. -/
def Predicate.asks (catalog : Catalog) (s : Schema) (p : Predicate) : List TypeName :=
  (p.leaves.takeWhile fun leaf => (leaf.condition catalog s).isOk).flatMap (·.leafAsks s)

end TypedRecords.Query
