/-
What can go wrong, by cause.

Queries can fail to compile, records can fail to map, a store can fail to answer, and a write can be
forbidden.  Each cause is a constructor that holds what it concerns; one function for each type of
error gives the wording.
-/
import TypedRecords.Scalar
import TypedRecords.Schema.Declaration

namespace TypedRecords

/-! ### Values and queries as text -/

/-- A text that is not what it should be. -/
inductive FormatError where
  /-- Not the JSON form of what was asked for. -/
  | serialization
  | invalidValue (problem : String)
  | invalidQuery (problem : String)
deriving DecidableEq, Inhabited

/-- The name of the cause. -/
def FormatError.label : FormatError → String
  | serialization => "Serialization"
  | invalidValue _ => "InvalidValue"
  | invalidQuery _ => "InvalidQuery"

def FormatError.message : FormatError → String
  | serialization => "serialization error"
  | invalidValue problem => "invalid value: " ++ problem
  | invalidQuery problem => "invalid query: " ++ problem

/-- The identity a text stands for; a text that is none is named in the error. -/
def Identity.read (s : String) : Except FormatError Identity :=
  match Identity.ofText? s with
  | some id => .ok id
  | none => .error (.invalidValue ("invalid identity '" ++ s ++ "'"))

/-! ### Stores -/

/-- A store did not answer, or answered no. -/
inductive StoreError where
  | connection (problem : String)
  | transport (problem : String)
  | rejected (status : UInt16) (problem : String)
deriving DecidableEq, Inhabited

def StoreError.message : StoreError → String
  | connection problem => "connection error: " ++ problem
  | transport problem => "transport error: " ++ problem
  | rejected status problem =>
    "request rejected (" ++ Nat.repr status.toNat ++ "): " ++ problem

/-! ### Compiling predicates -/

/-- A predicate that no filter expresses. -/
inductive CompileError where
  | unmappedEntity (type : TypeName)
  | unsupportedExpression (shape : String)
  | unsupportedMethod (method : String)
  /-- A path of no or more than two members. -/
  | chainTooDeep (path : List String)
  | notALink (entity member : String)
  | invalidArgument (method problem : String)
deriving DecidableEq, Inhabited

/-- A path as members joined by points. -/
def pathText (path : List String) : String := ".".intercalate path

namespace CompileError

/-- The name of the cause. -/
def label : CompileError → String
  | unmappedEntity _ => "UnmappedEntity"
  | unsupportedExpression _ => "UnsupportedExpression"
  | unsupportedMethod _ => "UnsupportedMethod"
  | chainTooDeep _ => "MemberChainTooDeep"
  | notALink .. => "NotALink"
  | invalidArgument .. => "InvalidArgument"

def message : CompileError → String
  | unmappedEntity type => "type '" ++ type ++ "' is not mapped to an entity"
  | unsupportedExpression shape => "unsupported expression: " ++ shape
  | unsupportedMethod method => "unsupported method '" ++ method ++ "'"
  | chainTooDeep path => "member chain '" ++ pathText path ++ "' must have one or two levels"
  | notALink entity member =>
    "member '" ++ member ++ "' of '" ++ entity ++ "' is not a linked entity"
  | invalidArgument method problem => "invalid argument to '" ++ method ++ "': " ++ problem

/-- A negated predicate. -/
def negation : CompileError := .unsupportedExpression "negation"

/-- A member that stands alone as a predicate. -/
def bareMember (path : List String) : CompileError :=
  .unsupportedExpression ("bare member '" ++ pathText path ++ "'")

/-- A condition inside an entity that is fetched after the query. -/
def followUpLink (outer inner : String) : CompileError :=
  .unsupportedExpression
    ("condition on '" ++ outer ++ "." ++ inner ++ "' whose link is resolved by a follow-up lookup")

end CompileError

/-! ### Mapping -/

/-- Why a field does not map. -/
inductive MappingProblem where
  | conversion (e : ConversionError)
  /-- A linked field's attribute holds something other than a lookup. -/
  | notALookup (found : Scalar.Kind)
  /-- A lookup points at an entity that the field has no link to. -/
  | noLink (target : String)
  | unmapped
  | noRelationship
  /-- Linked entities nest beyond the bound on their depth. -/
  | nestedTooDeep
  | other (problem : String)
deriving DecidableEq, Inhabited

def MappingProblem.message : MappingProblem → String
  | conversion e => e.message
  | notALookup found => "expected a lookup, found " ++ found.label
  | noLink target => "no link declared to '" ++ target ++ "'"
  | unmapped => "type is not mapped to an entity"
  | noRelationship => "no relationship declared"
  | nestedTooDeep => "linked entities nest too deep"
  | other problem => problem

/-- A failure to map, with the entity and the field that it concerns. -/
structure MappingError where
  entity : String
  /-- Empty when the whole entity fails. -/
  field : String
  problem : MappingProblem
deriving DecidableEq, Inhabited

def MappingError.message (e : MappingError) : String :=
  "entity '" ++ e.entity ++ "', field '" ++ e.field ++ "': " ++ e.problem.message

/-! ### All of them -/

/-- What data access reports or returns when it fails. -/
inductive Error where
  | compilation (e : CompileError)
  | mapping (e : MappingError)
  | store (e : StoreError)
  /-- A write through a manager that only reads. -/
  | policyViolation (operation : String)
  | unmapped (type : TypeName)
  | format (e : FormatError)
deriving DecidableEq, Inhabited

namespace Error

/-- The name of the cause. -/
def label : Error → String
  | compilation _ => "Compilation"
  | mapping _ => "Mapping"
  | store _ => "Store"
  | policyViolation _ => "PolicyViolation"
  | unmapped _ => "Unmapped"
  | format _ => "Protocol"

def message : Error → String
  | compilation e => "compilation error: " ++ e.message
  | mapping e => "mapping error: " ++ e.message
  | store e => "store error: " ++ e.message
  | policyViolation operation =>
    "policy violation: " ++ operation ++ " is not allowed on a read-only manager"
  | unmapped type => "type '" ++ type ++ "' is not mapped to an entity"
  | format e => "protocol error: " ++ e.message

/-- The error is returned to the caller and never only reported. -/
def isFatal : Error → Bool
  | policyViolation _ => true
  | _ => false

end Error

end TypedRecords
