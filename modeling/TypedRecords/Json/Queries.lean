/-
Page queries and settings in JSON.

Every structure is an object of its fields in order.  A page query names the entity it asks for: a
text that reads as one without a name is refused as a query, any other failure as a text.
-/
import TypedRecords.Config
import TypedRecords.Error
import TypedRecords.Json.Records

namespace TypedRecords.Json

open Query

/-! ### Words -/

def junctions : List (String × Junction) := [("And", .and), ("Or", .or)]

def operators : List (String × Operator) :=
  [("Equal", .equal), ("NotEqual", .notEqual), ("GreaterThan", .greaterThan),
   ("GreaterEqual", .greaterEqual), ("LessThan", .lessThan), ("LessEqual", .lessEqual),
   ("Like", .like), ("NotLike", .notLike), ("In", .isIn), ("NotIn", .notIn), ("Null", .null),
   ("NotNull", .notNull), ("BeginsWith", .beginsWith), ("EndsWith", .endsWith),
   ("ContainValues", .containValues)]

def joinKinds : List (String × JoinKind) := [("Inner", .inner), ("Outer", .outer)]

def lifecycles : List (String × Lifecycle) :=
  [("Unknown", .unknown), ("Active", .active), ("Inactive", .inactive), ("Disabled", .disabled)]

/-- The word of a value in a table of words. -/
def wordOf {α : Type} [DecidableEq α] (table : List (String × α)) (a : α) : String :=
  ((table.find? (·.2 = a)).map Prod.fst).getD ""

def ofLifecycle (state : Lifecycle) : Json := .string (wordOf lifecycles state)

/-! ### Filters -/

def ofCondition (c : Condition) : Json :=
  .members [
    ("attribute", .string c.attr),
    ("operator", .string (wordOf operators c.operator)),
    ("value", ofOption .string c.value),
    ("lookup_entity", ofOption .string c.lookupEntity),
    ("entity_alias", ofOption .string c.entityAlias)]

def Decoder.condition : Decoder Condition := fun room j => do
  let p ← parts ["attribute", "operator", "value", "lookup_entity", "entity_alias"] false room j
  return {
    attr := ← p.required "attribute" string
    operator := ← p.required "operator" (oneOf operators)
    value := ← p.optional "value" string
    lookupEntity := ← p.optional "lookup_entity" string
    entityAlias := ← p.optional "entity_alias" string }

/-- A filter with its children in JSON. -/
def filterMembers (junction : Junction) (children : List Json) : Json :=
  .members [("filter_type", .string (wordOf junctions junction)), ("children", .array children)]

mutual

def ofFilterChild : FilterChild → Json
  | .condition c => .members [("Condition", ofCondition c)]
  | .filter junction children =>
    .members [("Filter", filterMembers junction (ofFilterChildren children))]

def ofFilterChildren : List FilterChild → List Json
  | [] => []
  | child :: rest => ofFilterChild child :: ofFilterChildren rest

end

def ofFilter (f : Filter) : Json := filterMembers f.junction (ofFilterChildren f.children)

/-- A filter, given a decoder for its children. -/
def Decoder.filterOf (child : Decoder FilterChild) : Decoder Filter := fun room j => do
  let p ← parts ["filter_type", "children"] false room j
  return {
    junction := ← p.required "filter_type" (oneOf junctions)
    children := ← p.required "children" (list child) }

/-- A child of a filter that nests at most `depth` levels of children. -/
def Decoder.filterChild : (depth : Nat) → Decoder FilterChild
  | 0 => fun _ _ => none
  | depth + 1 => fun room j => do
    match ← variant room j with
    | ("Condition", some (room, content)) => (condition room content).map .condition
    | ("Filter", some (room, content)) =>
      (filterOf (filterChild depth) room content).map Filter.asChild
    | _ => none

/-- A filter; every level of children takes some of the room, so the room bounds their depth. -/
def Decoder.filter : Decoder Filter := fun room j => filterOf (filterChild room) room j

/-! ### Page queries -/

def ofSortKey (k : SortKey) : Json :=
  .members [("attribute", .string k.attr), ("descending", .bool k.descending)]

def Decoder.sortKey : Decoder SortKey := fun room j => do
  let p ← parts ["attribute", "descending"] false room j
  return { attr := ← p.required "attribute" string, descending := ← p.required "descending" bool }

def ofJoin (k : Join) : Json :=
  .members [("name", .string k.child), ("from", .string k.childField),
    ("to", .string k.parentField), ("link_type", .string (wordOf joinKinds k.kind))]

def Decoder.join : Decoder Join := fun room j => do
  let p ← parts ["name", "from", "to", "link_type"] false room j
  return {
    child := ← p.required "name" string
    childField := ← p.required "from" string
    parentField := ← p.required "to" string
    kind := ← p.required "link_type" (oneOf joinKinds) }

def ofColumns : Columns → Json
  | .all => .string "All"
  | .named attributes => .members [("Named", list .string attributes)]

def Decoder.columns : Decoder Columns := fun room j => do
  match ← variant room j with
  | ("All", none) => some .all
  | ("All", some (_, .null)) => some .all
  | ("Named", some (room, content)) => (list string room content).map .named
  | _ => none

def ofPageQuery (q : PageQuery) : Json :=
  .members [
    ("entity_name", .string q.entity),
    ("columns", ofColumns q.columns),
    ("filter", ofOption ofFilter q.filter),
    ("orders", list ofSortKey q.order),
    ("links", list ofJoin q.joins),
    ("page", .nat q.page.toNat),
    ("count", .nat q.pageSize.toNat),
    ("distinct", .bool q.distinct),
    ("no_lock", .bool q.noLock),
    ("return_total_record_count", .bool q.countTotal),
    ("disable_pluralization", .bool q.verbatim)]

def Decoder.pageQuery : Decoder PageQuery := fun room j => do
  let p ← parts ["entity_name", "columns", "filter", "orders", "links", "page", "count",
    "distinct", "no_lock", "return_total_record_count", "disable_pluralization"] false room j
  return {
    entity := ← p.required "entity_name" string
    columns := ← p.required "columns" columns
    filter := ← p.optional "filter" filter
    order := ← p.required "orders" (list sortKey)
    joins := ← p.required "links" (list join)
    page := ← p.required "page" uint32
    pageSize := ← p.required "count" uint32
    distinct := ← p.required "distinct" bool
    noLock := ← p.required "no_lock" bool
    countTotal := ← p.required "return_total_record_count" bool
    verbatim := ← p.required "disable_pluralization" bool }

/-! ### Settings -/

def ofConfig (c : Config) : Json :=
  .members [("read_only", .bool c.readOnly), ("return_total_record_count", .bool c.countTotal),
    ("resolve_eager_links", .bool c.resolveEager)]

/-- Settings; those that are not given have their defaults. -/
def Decoder.config : Decoder Config := fun room j => do
  let p ← parts ["read_only", "return_total_record_count", "resolve_eager_links"] true room j
  return {
    readOnly := ← p.withDefault "read_only" bool false
    countTotal := ← p.withDefault "return_total_record_count" bool true
    resolveEager := ← p.withDefault "resolve_eager_links" bool true }

end TypedRecords.Json

namespace TypedRecords.Query.PageQuery

/-- The JSON text of a page query. -/
def toJsonText (q : PageQuery) : String := (Json.ofPageQuery q).text

/-- The page query that a JSON text stands for. -/
def ofJsonText (s : String) : Except FormatError PageQuery :=
  match Json.Decoder.pageQuery.ofText? s with
  | none => .error .serialization
  | some q =>
    if q.entity = "" then .error (.invalidQuery "entity name is empty") else .ok q

end TypedRecords.Query.PageQuery
