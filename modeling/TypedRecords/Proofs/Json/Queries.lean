/-
Page queries in JSON and back.

Every part of a page query is read back from the tree written for it, whatever strings, numbers and
lists it has.  Only filters nest: the query's object, a filter's object and the array of its children
stand inside one another, a child that is a condition takes an object for its variant and one for
itself, and a child that is a filter takes one for its variant and then those of a filter.  A text
nests a bounded number of levels, so a query reads back when its filter is no deeper than that, and
its text is refused as a text when it is.
-/
import TypedRecords.Json.Queries
import TypedRecords.Proofs.Json.Decoding

namespace TypedRecords.Json

open Query

namespace Decoder

/-! ### Words -/

/-- A value of a table of words is read back when its word leads to it. -/
theorem reads_oneOf {α : Type} [DecidableEq α] {table : List (String × α)}
    (h : ∀ a, table.lookup (wordOf table a) = some a) :
    (oneOf table).Reads fun a => .string (wordOf table a) where
  wellFormed a := wellFormed_string _
  decode room a := by
    rw [depth_string, within_zero]
    exact h a

theorem reads_junction : (oneOf junctions).Reads fun j => .string (wordOf junctions j) :=
  reads_oneOf fun j => by cases j <;> rfl

theorem reads_operator : (oneOf operators).Reads fun o => .string (wordOf operators o) :=
  reads_oneOf fun o => by cases o <;> rfl

theorem reads_joinKind : (oneOf joinKinds).Reads fun k => .string (wordOf joinKinds k) :=
  reads_oneOf fun k => by cases k <;> rfl

/-! ### Flat parts -/

theorem reads_optionalString : (nullable string).Reads (ofOption Json.string) :=
  reads_string.nullable fun _ h => nomatch h

@[simp] theorem depth_optionalString (s : Option String) :
    (ofOption Json.string s).depth = 0 := by
  cases s with
  | none => exact depth_null
  | some s => exact depth_string s

theorem reads_sortKey : sortKey.Reads ofSortKey where
  wellFormed k := wellFormed_members (by simp [WellFormedFields])
  decode room k := by
    refine decode_members (by simp) fun inside _ => ?_
    simp [Parts.required_cons, fieldsDepth, reads_string.decode,
      reads_bool.decode]

theorem reads_join : join.Reads ofJoin where
  wellFormed k := wellFormed_members (by simp [WellFormedFields])
  decode room k := by
    refine decode_members (by simp) fun inside _ => ?_
    simp [Parts.required_cons, fieldsDepth, reads_string.decode,
      reads_joinKind.decode]

theorem reads_condition : condition.Reads ofCondition where
  wellFormed c := wellFormed_members (by
    simp [WellFormedFields, reads_optionalString.wellFormed])
  decode room c := by
    refine decode_members (by simp) fun inside _ => ?_
    simp [Parts.required_cons, Parts.optional_cons, fieldsDepth,
      reads_string.decode, reads_operator.decode, reads_optionalString.decode]

theorem reads_columns : columns.Reads ofColumns where
  wellFormed
    | .all => wellFormed_string _
    | .named attributes =>
        wellFormed_members (by simp [WellFormedFields, reads_string.list.wellFormed])
  decode room
    | .all => by
        rw [ofColumns, depth_string, within_zero]
        rfl
    | .named attributes => by
        rw [ofColumns, depth_members]
        cases room with
        | zero => rfl
        | succ room =>
            show (list string room (Json.list Json.string attributes)).map Columns.named = _
            rw [reads_string.list.decode, map_within, within_succ]
            simp [fieldsDepth]

/-! ### Filters -/

/-- A filter is read when its children are, in the room that is left for them. -/
theorem decode_filterMembers {child : Decoder FilterChild} {junction : Junction}
    {items : List Json} {children : List FilterChild} {room : Nat}
    (h : ∀ inside, room = inside + 2 →
      items.mapM (child inside) = within (itemsDepth items) inside children) :
    filterOf child room (filterMembers junction items)
      = within (filterMembers junction items).depth room ⟨junction, children⟩ := by
  refine decode_members (by simp) fun inside hroom => ?_
  have hlist : list child inside (.array items) = within (itemsDepth items + 1) inside children := by
    cases inside with
    | zero => rfl
    | succ inside =>
        show items.mapM (child inside) = _
        rw [h inside hroom, within_succ]
  simp [Parts.required_cons, fieldsDepth, depth, reads_junction.decode, hlist]

mutual

/-- A child is read in any room that leaves enough levels of children to follow it down. -/
theorem decode_filterChild : ∀ (child : FilterChild) (levels room : Nat), room ≤ levels →
    filterChild levels room (ofFilterChild child)
      = within (ofFilterChild child).depth room child
  | .condition _, 0, 0, _ => by
      rw [ofFilterChild, depth_members]
      rfl
  | .filter _ _, 0, 0, _ => by
      rw [ofFilterChild, depth_members]
      rfl
  | .condition c, levels + 1, room, _ => by
      rw [ofFilterChild, depth_members]
      cases room with
      | zero => rfl
      | succ room =>
          show (condition room (ofCondition c)).map FilterChild.condition = _
          rw [reads_condition.decode, map_within, within_succ]
          simp [fieldsDepth]
  | .filter junction children, levels + 1, room, h => by
      rw [ofFilterChild, depth_members]
      cases room with
      | zero => rfl
      | succ room =>
          have hfilter : filterOf (filterChild levels) room
              (filterMembers junction (ofFilterChildren children)) = within _ room _ :=
            decode_filterMembers fun inside hinside =>
              decode_filterChildren children levels inside (by omega)
          show (filterOf (filterChild levels) room
            (filterMembers junction (ofFilterChildren children))).map Filter.asChild = _
          rw [hfilter, map_within, within_succ]
          simp [fieldsDepth, Filter.asChild]

theorem decode_filterChildren : ∀ (children : List FilterChild) (levels room : Nat),
    room ≤ levels →
    (ofFilterChildren children).mapM (filterChild levels room)
      = within (itemsDepth (ofFilterChildren children)) room children
  | [], _, _, _ => by simp [ofFilterChildren, itemsDepth]
  | child :: rest, levels, room, h => by
      have hchild := decode_filterChild child levels room h
      have hrest := decode_filterChildren rest levels room h
      simp [ofFilterChildren, itemsDepth, hchild, hrest]

end

mutual

theorem wellFormed_ofFilterChild : ∀ child, (ofFilterChild child).WellFormed
  | .condition c => by
      rw [ofFilterChild]
      exact wellFormed_members (by simp [WellFormedFields, reads_condition.wellFormed])
  | .filter junction children => by
      have hchildren : (Json.array (ofFilterChildren children)).WellFormed := by
        rw [WellFormed]
        exact wellFormed_ofFilterChildren children
      rw [ofFilterChild]
      exact wellFormed_members (by
        simpa [WellFormedFields, filterMembers] using
          wellFormed_members (by simpa [WellFormedFields] using hchildren))

theorem wellFormed_ofFilterChildren : ∀ children, WellFormedItems (ofFilterChildren children)
  | [] => by simp [ofFilterChildren, WellFormedItems]
  | child :: rest =>
      ⟨wellFormed_ofFilterChild child, wellFormed_ofFilterChildren rest⟩

end

theorem reads_filter : filter.Reads ofFilter where
  wellFormed f := by
    have hchildren : (Json.array (ofFilterChildren f.children)).WellFormed := by
      rw [WellFormed]
      exact wellFormed_ofFilterChildren f.children
    exact wellFormed_members (by simpa [WellFormedFields] using hchildren)
  decode room f := decode_filterMembers fun inside hinside =>
    decode_filterChildren f.children room inside (by omega)

/-! ### Page queries -/

theorem reads_optionalFilter : (nullable filter).Reads (ofOption ofFilter) :=
  reads_filter.nullable fun _ h => nomatch h

theorem reads_pageQuery : pageQuery.Reads ofPageQuery where
  wellFormed q := wellFormed_members (by
    simp [WellFormedFields, reads_columns.wellFormed, reads_optionalFilter.wellFormed,
      reads_sortKey.list.wellFormed, reads_join.list.wellFormed])
  decode room q := by
    refine decode_members (by simp) fun inside _ => ?_
    simp only [Parts.required_cons, Parts.optional_cons, String.reduceEq, if_true, if_false,
      reads_string.decode, reads_columns.decode, reads_optionalFilter.decode,
      reads_sortKey.list.decode, reads_join.list.decode, reads_uint32.decode, reads_bool.decode,
      fieldsDepth, depth_string, depth_nat, depth_bool, Nat.max_zero, Nat.zero_max, within_zero,
      Option.bind_eq_bind, Option.bind_some, Option.pure_def, within_bind_some, within_bind_within]

end Decoder

end TypedRecords.Json

namespace TypedRecords.Query

open Json (nestingRoom)

/-! ### How deep filters nest -/

mutual

/-- The levels that a child of a filter takes up in a text. -/
def FilterChild.nesting : FilterChild → Nat
  | .condition _ => 2
  | .filter _ children => FilterChild.nestingEach children + 3

/-- The levels that the deepest of some children takes up. -/
def FilterChild.nestingEach : List FilterChild → Nat
  | [] => 0
  | child :: rest => max child.nesting (FilterChild.nestingEach rest)

end

/-- The levels that a filter takes up in a text. -/
def Filter.nesting (f : Filter) : Nat := FilterChild.nestingEach f.children + 2

/-- The levels that a query's filter takes up inside the query's own object. -/
def PageQuery.nesting (q : PageQuery) : Nat := q.filter.elim 0 Filter.nesting

theorem depth_filterMembers (junction : Junction) (items : List Json) :
    (Json.filterMembers junction items).depth = Json.itemsDepth items + 2 := by
  simp [Json.filterMembers, Json.depth_members, Json.fieldsDepth, Json.depth]

theorem depth_ofCondition (c : Condition) : (Json.ofCondition c).depth = 1 := by
  simp [Json.ofCondition, Json.depth_members, Json.fieldsDepth]

mutual

theorem FilterChild.depth_of : ∀ child, (Json.ofFilterChild child).depth = child.nesting
  | .condition c => by
      simp [Json.ofFilterChild, Json.depth_members, Json.fieldsDepth, depth_ofCondition,
        FilterChild.nesting]
  | .filter junction children => by
      simp [Json.ofFilterChild, Json.depth_members, Json.fieldsDepth, depth_filterMembers,
        FilterChild.depthEach_of children, FilterChild.nesting]

theorem FilterChild.depthEach_of : ∀ children,
    Json.itemsDepth (Json.ofFilterChildren children) = FilterChild.nestingEach children
  | [] => rfl
  | child :: rest => by
      rw [Json.ofFilterChildren, Json.itemsDepth, FilterChild.depth_of child,
        FilterChild.depthEach_of rest, FilterChild.nestingEach]

end

theorem Filter.depth_of (f : Filter) : (Json.ofFilter f).depth = f.nesting := by
  rw [Json.ofFilter, depth_filterMembers, FilterChild.depthEach_of, Filter.nesting]

namespace PageQuery

variable {q : PageQuery}

/-- The other parts of a query are never deep. -/
theorem depth_le_iff (q : PageQuery) :
    (Json.ofPageQuery q).depth ≤ nestingRoom ↔ q.nesting < nestingRoom := by
  have hcolumns : (Json.ofColumns q.columns).depth ≤ 2 := by
    cases q.columns with
    | all => simp [Json.ofColumns]
    | named attributes =>
        have := Json.depth_list_le (fun s => (Json.depth_string s).le) attributes
        simpa [Json.ofColumns, Json.depth_members, Json.fieldsDepth] using this
  have horder : (Json.list Json.ofSortKey q.order).depth ≤ 2 :=
    Json.depth_list_le (fun k => by simp [Json.ofSortKey, Json.depth_members, Json.fieldsDepth]) _
  have hjoins : (Json.list Json.ofJoin q.joins).depth ≤ 2 :=
    Json.depth_list_le (fun k => by simp [Json.ofJoin, Json.depth_members, Json.fieldsDepth]) _
  have hfilter : (Json.ofOption Json.ofFilter q.filter).depth = q.nesting := by
    unfold nesting
    cases q.filter with
    | none => exact Json.depth_null
    | some f => exact f.depth_of
  simp only [Json.ofPageQuery, Json.depth_members, Json.fieldsDepth, hfilter, Json.depth_string,
    Json.depth_nat, Json.depth_bool, nestingRoom]
  omega

theorem ofJsonText_of_nesting_lt (h : q.nesting < nestingRoom) :
    ofJsonText q.toJsonText
      = if q.entity = "" then .error (.invalidQuery "entity name is empty") else .ok q := by
  have hread := Json.Decoder.reads_pageQuery.ofText?_text q
  rw [Json.Decoder.within, if_pos ((depth_le_iff q).mpr h)] at hread
  simp only [ofJsonText, toJsonText, hread]

theorem ofJsonText_of_nesting_ge (h : ¬q.nesting < nestingRoom) :
    ofJsonText q.toJsonText = .error .serialization := by
  have hread := Json.Decoder.reads_pageQuery.ofText?_text q
  rw [Json.Decoder.within, if_neg fun hle => h ((depth_le_iff q).mp hle)] at hread
  simp only [ofJsonText, toJsonText, hread]

/-- **A query's JSON text reads back to the query**, whatever it holds, as long as its filter nests
less deep than a text may.  A query without an entity is then refused as a query, and the text of a
query that nests deeper is refused as a text. -/
theorem ofJsonText_toJsonText (q : PageQuery) :
    ofJsonText q.toJsonText =
      if q.nesting < nestingRoom then
        if q.entity = "" then .error (.invalidQuery "entity name is empty") else .ok q
      else .error .serialization := by
  by_cases h : q.nesting < nestingRoom
  · rw [if_pos h, ofJsonText_of_nesting_lt h]
  · rw [if_neg h, ofJsonText_of_nesting_ge h]

/-- A condition inside filters that stand one inside the other. -/
def boxed (c : Condition) : (filters : Nat) → FilterChild
  | 0 => .condition c
  | filters + 1 => .filter .and [boxed c filters]

theorem nesting_boxed (c : Condition) (filters : Nat) :
    (boxed c filters).nesting = 3 * filters + 2 := by
  induction filters with
  | zero => rfl
  | succ filters ih =>
      simp only [boxed, FilterChild.nesting, FilterChild.nestingEach, ih]
      omega

/-- A query for a name inside forty-two filters. -/
def deep : PageQuery :=
  { entity := "account", filter := some ⟨.and, [boxed (.compare "name" .equal "A") 41]⟩ }

/-- Forty-two filters around a condition are too deep for a text, with or without an entity. -/
theorem ofJsonText_deep :
    deep.entity ≠ "" ∧ ofJsonText deep.toJsonText = .error .serialization ∧
      ofJsonText { deep with entity := "" }.toJsonText = .error .serialization := by
  have hnesting : deep.nesting = 127 := by
    simp [deep, nesting, Filter.nesting, FilterChild.nestingEach, nesting_boxed]
  exact ⟨by decide, ofJsonText_of_nesting_ge (by rw [hnesting]; decide),
    ofJsonText_of_nesting_ge (by show ¬deep.nesting < _; rw [hnesting]; decide)⟩

end PageQuery

end TypedRecords.Query
