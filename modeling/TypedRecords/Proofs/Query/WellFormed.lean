/-
Which conditions a store can take.

A null check has no value, and any other condition has one; a condition that names the entity of a
lookup has the lookup's identity as its value.  Conditions come by three routes: from the leaves of a
predicate, from key conditions and from the state.  A predicate has no null check of its own, only
those that a comparison with null becomes, and the state is compared with a code.  A key condition
may ask for a null check itself, and one that does so with a value to compare keeps both.  That is
the only way a page query comes to a condition that is not well formed.
-/
import TypedRecords.Proofs.Query.Search

namespace TypedRecords.Query

/-- A condition that a store can take. -/
structure Condition.WellFormed (c : Condition) : Prop where
  /-- There is a value exactly when the operator takes one. -/
  valued : c.value.isSome = true ↔ c.operator.isNullCheck = false
  /-- The entity of a lookup comes with the lookup's identity. -/
  lookup : ∀ entity, c.lookupEntity = some entity → ∃ id : Identity, c.value = some id.canonical

/-- The conditions of a page query, at every depth of its filter, from left to right. -/
def PageQuery.conditions (q : PageQuery) : List Condition := q.filter.elim [] Filter.leaves

/-! ### One comparison -/

namespace Condition

variable {field : ResolvedField} {operator : Operator} {value : Scalar}

theorem ofScalar_null (field : ResolvedField) (operator : Operator) :
    ofScalar field operator .null
      = { attr := field.attr
          operator := if operator = .notEqual ∨ operator = .notNull then .notNull else .null
          entityAlias := field.joinName } := rfl

theorem ofScalar_of_ne_null (h : value ≠ .null) (field : ResolvedField) (operator : Operator) :
    ofScalar field operator value
      = { attr := field.attr, operator, value := value.conditionValue.1
          lookupEntity := value.conditionValue.2, entityAlias := field.joinName } := by
  unfold ofScalar
  rw [if_neg (by simp [Scalar.isNull, h])]

/-- Every scalar but null has a text. -/
theorem isSome_conditionValue (h : value ≠ .null) : value.conditionValue.1.isSome = true := by
  cases value with
  | null => exact absurd rfl h
  | _ => rfl

/-- Only a lookup names an entity, and its text is its identity's. -/
theorem reference_of_lookupEntity {entity : String}
    (h : (ofScalar field operator value).lookupEntity = some entity) :
    ∃ r : Reference, value = .reference r ∧ r.entity = entity ∧
      (ofScalar field operator value).value = some r.id.canonical := by
  cases value with
  | reference r => exact ⟨r, rfl, Option.some.inj h, rfl⟩
  | _ => cases h

/-- **A comparison is well formed unless it is a null check with a value.** -/
theorem wellFormed_ofScalar_iff :
    (ofScalar field operator value).WellFormed ↔
      (operator.isNullCheck = true → value = .null) := by
  have hlookup : ∀ entity, (ofScalar field operator value).lookupEntity = some entity →
      ∃ id : Identity, (ofScalar field operator value).value = some id.canonical := by
    intro entity h
    obtain ⟨r, -, -, hvalue⟩ := reference_of_lookupEntity h
    exact ⟨r.id, hvalue⟩
  by_cases hnull : value = .null
  · subst hnull
    refine ⟨fun _ _ => rfl, fun _ => ⟨?_, hlookup⟩⟩
    rw [ofScalar_null]
    by_cases hdiffers : operator = .notEqual ∨ operator = .notNull
    · simp [hdiffers, Operator.isNullCheck]
    · simp [hdiffers, Operator.isNullCheck]
  · have hsome := isSome_conditionValue hnull
    rw [ofScalar_of_ne_null hnull] at hlookup ⊢
    constructor
    · rintro ⟨hvalued, -⟩ hcheck
      have hno := hvalued.mp hsome
      rw [hcheck] at hno
      cases hno
    · intro h
      refine ⟨⟨fun _ => ?_, fun _ => hsome⟩, hlookup⟩
      exact Bool.eq_false_iff.mpr fun hcheck => hnull (h hcheck)

end Condition

/-! ### The leaves of a predicate -/

/-- No comparison and no method of a predicate is a null check. -/
theorem Predicate.isNullCheck_of_leaf {p : Predicate} {path : List String} {operator : Operator}
    {value : Scalar} (h : p.leaf = .ok (path, operator, value)) :
    operator.isNullCheck = false := by
  cases p with
  | compare path op operand =>
      cases h
      cases op <;> rfl
  | call path method args =>
      obtain ⟨operator, hmethod, h⟩ := bind_eq_ok.mp h
      obtain ⟨argument, -, h⟩ := bind_eq_ok.mp h
      cases h
      unfold methodOperator at hmethod
      split at hmethod <;> cases hmethod <;> rfl
  | _ => cases h

/-- What a leaf compares with. -/
def Predicate.operand? (leaf : Predicate) : Option Scalar :=
  leaf.leaf.toOption.map fun parts => parts.2.2

/-- A leaf's condition is a comparison with the leaf's operand. -/
theorem Predicate.comparison_of_condition {catalog : Catalog} {schema : Schema} {p : Predicate}
    {c : Condition} (h : p.condition catalog schema = .ok c) :
    ∃ field operator value, c = .ofScalar field operator value ∧
      p.operand? = some value ∧ operator.isNullCheck = false := by
  obtain ⟨⟨path, operator, value⟩, hleaf, h⟩ := bind_eq_ok.mp h
  obtain ⟨field, -, h⟩ := bind_eq_ok.mp h
  cases h
  refine ⟨field, operator, value, rfl, ?_, isNullCheck_of_leaf hleaf⟩
  unfold operand?
  rw [hleaf]
  rfl

/-! ### The conditions of a search -/

/-- What a search compares with: the operands of its predicate, or else of its key conditions. -/
def Search.operands (s : Search) : List Scalar :=
  match s.predicate with
  | some p => p.leaves.filterMap (·.operand?)
  | none => s.conditions.map (·.operand.value)

/-- A search makes a page query, among the entities of a mapped type or among the records of an
entity that no type is mapped to. -/
inductive Search.Makes (s : Search) : PageQuery → Prop
  | typed {catalog : Catalog} {type : TypeName} {schema : Schema} {q : PageQuery}
      (hs : catalog.schema? type = some schema) (h : s.toPageQuery catalog schema = .ok q) :
      s.Makes q
  | untyped {entity : String} {q : PageQuery} (h : s.toUntypedPageQuery entity = .ok q) :
      s.Makes q

/-- What stands beside the state in a page query's filter: the compiled predicate, or the key
conditions. -/
inductive Search.Body (s : Search) (f : Filter) : Prop
  | predicate {catalog : Catalog} {schema : Schema} {p : Predicate} (hp : s.predicate = some p)
      (hf : p.MirrorsRoot catalog schema f)
  | keys {resolveKey : String → String} (hp : s.predicate = none)
      (hf : f = s.keyFilter resolveKey)

variable {s : Search} {q : PageQuery} {f : Filter} {c : Condition}

/-- The state is beside the rest of the conditions. -/
theorem Beside.leaves_eq {c : Option Condition} {g : Option Filter} (h : Beside c f g) :
    g.elim [] Filter.leaves = f.leaves ++ c.toList := by
  cases h with
  | nothing => rfl
  | alone _ => exact (List.append_nil _).symm
  | and =>
      simp only [Option.elim, Filter.leaves, Filter.asChild, FilterChild.leaves,
        FilterChild.leavesEach_eq_flatMap, List.flatMap_append]
      rfl
  | or =>
      simp only [Option.elim, Filter.leaves, Filter.asChild, FilterChild.leaves,
        FilterChild.leavesEach]
      rfl

theorem conditions_request (s : Search) (schema : Schema) (f : Filter) :
    (s.request schema f).conditions
      = f.leaves ++ (s.state.condition? schema.stateField).toList :=
  (beside_withState schema.stateField s.state f).leaves_eq

/-- A page query's conditions are those of the body and the one on the state. -/
theorem Search.Makes.conditions_eq (h : s.Makes q) :
    ∃ stateField f, s.Body f ∧
      q.conditions = f.leaves ++ (s.state.condition? stateField).toList := by
  cases h with
  | @typed catalog type schema q hs h =>
      rw [toPageQuery_eq, map_eq_ok] at h
      obtain ⟨f, hf, rfl⟩ := h
      refine ⟨schema.stateField, f, ?_, conditions_request s schema f⟩
      unfold Search.bodyFilter at hf
      cases hp : s.predicate with
      | some p =>
          rw [hp] at hf
          exact .predicate hp (Predicate.toFilter_eq_ok_iff.mp hf)
      | none =>
          rw [hp] at hf
          exact .keys hp (Except.ok.inj hf).symm
  | @untyped entity q h =>
      cases hp : s.predicate with
      | some p =>
          unfold Search.toUntypedPageQuery at h
          rw [hp] at h
          cases h
      | none =>
          obtain ⟨q', hq', hfilter⟩ := toUntypedPageQuery_of_keys hp entity
          cases hq'.symm.trans h
          refine ⟨"statecode", s.keyFilter id, .keys hp rfl, ?_⟩
          unfold PageQuery.conditions
          rw [hfilter]
          exact (beside_withState "statecode" s.state _).leaves_eq

/-- The conditions of key conditions, in order. -/
theorem leaves_keyFilter (s : Search) (resolveKey : String → String) :
    (s.keyFilter resolveKey).leaves = s.conditions.map (·.condition resolveKey) := by
  rw [keyFilter_eq, leaves_flat]

/-- A condition of the body compares with one of the search's operands.  It is a null check of its
own only if it comes from a key condition. -/
theorem Search.Body.comparison (hbody : s.Body f) (hc : c ∈ f.leaves) :
    ∃ field operator value, c = .ofScalar field operator value ∧ value ∈ s.operands ∧
      (operator.isNullCheck = true → s.predicate = none ∧
        ∃ k ∈ s.conditions, k.operator = operator ∧ k.operand.value = value) := by
  cases hbody with
  | @predicate catalog schema p hp hf =>
      have hmem : Except.ok c ∈ p.leaves.map (·.condition catalog schema) := by
        rw [hf.leaves_eq]
        exact List.mem_map_of_mem hc
      obtain ⟨leaf, hleaf, hcondition⟩ := List.mem_map.mp hmem
      obtain ⟨field, operator, value, rfl, hoperand, hcheck⟩ :=
        Predicate.comparison_of_condition hcondition
      refine ⟨field, operator, value, rfl, ?_, fun h => by simp [hcheck] at h⟩
      unfold Search.operands
      rw [hp]
      exact List.mem_filterMap.mpr ⟨leaf, hleaf, hoperand⟩
  | @keys resolveKey hp hf =>
      rw [hf, leaves_keyFilter] at hc
      obtain ⟨k, hk, rfl⟩ := List.mem_map.mp hc
      refine ⟨_, k.operator, k.operand.value, rfl, ?_, fun _ => ⟨hp, k, hk, rfl, rfl⟩⟩
      unfold Search.operands
      rw [hp]
      exact List.mem_map_of_mem hk

/-- The condition on the state is a comparison with a code. -/
theorem StateFilter.compare_of_condition? {stateField : String} {state : StateFilter}
    (h : c ∈ (state.condition? stateField).toList) :
    ∃ code, c = .compare stateField .equal code := by
  cases state with
  | active => exact ⟨_, List.mem_singleton.mp h⟩
  | inactive => exact ⟨_, List.mem_singleton.mp h⟩
  | all => cases h

theorem Condition.wellFormed_compare (attr code : String) :
    (Condition.compare attr .equal code).WellFormed :=
  ⟨⟨fun _ => rfl, fun _ => rfl⟩, nofun⟩

/--
**A page query is well formed unless a key condition is a null check with a value.**

A condition of a page query, at any depth, that names the entity of a lookup has the canonical
identity of that lookup as its value, and the lookup is one that the search compares with.  All
conditions are well formed when the search has a predicate; without one they are exactly when each
key condition that asks for a null check compares with null.
-/
theorem conditions_wellFormed_iff (h : s.Makes q) :
    (∀ c ∈ q.conditions, ∀ entity, c.lookupEntity = some entity →
      ∃ r, .reference r ∈ s.operands ∧ r.entity = entity ∧ c.value = some r.id.canonical) ∧
    ((∀ c ∈ q.conditions, c.WellFormed) ↔
      (s.predicate = none →
        ∀ k ∈ s.conditions, k.operator.isNullCheck = true → k.operand.value = .null)) := by
  obtain ⟨stateField, f, hbody, hconditions⟩ := h.conditions_eq
  rw [hconditions]
  refine ⟨?_, ?_, ?_⟩
  · intro c hc entity hentity
    rcases List.mem_append.mp hc with hc | hc
    · obtain ⟨field, operator, value, rfl, hoperand, -⟩ := hbody.comparison hc
      obtain ⟨r, rfl, hr, hvalue⟩ := Condition.reference_of_lookupEntity hentity
      exact ⟨r, hoperand, hr, hvalue⟩
    · obtain ⟨code, rfl⟩ := StateFilter.compare_of_condition? hc
      cases hentity
  · intro hall hp k hk
    cases hbody with
    | predicate hsome _ => cases hsome.symm.trans hp
    | @keys resolveKey _ hf =>
        have hmem : k.condition resolveKey ∈ f.leaves := by
          rw [hf, leaves_keyFilter]
          exact List.mem_map_of_mem hk
        exact Condition.wellFormed_ofScalar_iff.mp (hall _ (List.mem_append_left _ hmem))
  · intro hkeys c hc
    rcases List.mem_append.mp hc with hc | hc
    · obtain ⟨field, operator, value, rfl, -, hcheck⟩ := hbody.comparison hc
      refine Condition.wellFormed_ofScalar_iff.mpr fun hnull => ?_
      obtain ⟨hp, k, hk, rfl, rfl⟩ := hcheck hnull
      exact hkeys hp k hk hnull
    · obtain ⟨code, rfl⟩ := StateFilter.compare_of_condition? hc
      exact Condition.wellFormed_compare stateField code

/-- The active accounts that one user owns and that have a size. -/
def ownedAndSized : Search where
  conditions :=
    [⟨"ownerid", .literal (.reference ⟨"systemuser", ⟨5, by decide⟩⟩), .equal⟩,
      ⟨"employees", .literal .null, .notNull⟩]

theorem conditions_wellFormed_iff_owned :
    ∃ q, ownedAndSized.Makes q ∧
      q.conditions.map (·.lookupEntity) = [some "systemuser", none, none] ∧
      ownedAndSized.predicate = none ∧
      (∀ k ∈ ownedAndSized.conditions, k.operator.isNullCheck = true → k.operand.value = .null) ∧
      ∀ c ∈ q.conditions, c.WellFormed := by
  have hs : accounts.schema? "Account" = some accountSchema := rfl
  have hmakes : ∃ q, ownedAndSized.Makes q ∧
      q.conditions.map (·.lookupEntity) = [some "systemuser", none, none] :=
    ⟨_, .typed hs rfl, rfl⟩
  obtain ⟨q, hq, hlookups⟩ := hmakes
  have hkeys : ∀ k ∈ ownedAndSized.conditions,
      k.operator.isNullCheck = true → k.operand.value = .null := by
    simp [ownedAndSized, Operator.isNullCheck, Operand.value]
  exact ⟨q, hq, hlookups, rfl, hkeys, (conditions_wellFormed_iff hq).2.mpr fun _ => hkeys⟩

/-- The accounts in any state whose name is there, asked for with a name to compare. -/
def named : Search where
  conditions := [⟨"name", .literal (.string "Alpha"), .notNull⟩]
  state := .all

/-- The null check keeps the name, and the page query is not well formed. -/
theorem null_check_with_value :
    ∃ q, named.toPageQuery accounts accountSchema = .ok q ∧
      accounts.schema? "Account" = some accountSchema ∧
      q.conditions = [{ attr := "name", operator := .notNull, value := some "Alpha" }] ∧
      ¬∀ c ∈ q.conditions, c.WellFormed := by
  have hq : ∃ q, named.toPageQuery accounts accountSchema = .ok q ∧
      q.conditions = [{ attr := "name", operator := .notNull, value := some "Alpha" }] :=
    ⟨_, rfl, rfl⟩
  obtain ⟨q, hq, hconditions⟩ := hq
  refine ⟨q, hq, rfl, hconditions, fun hall => ?_⟩
  rw [hconditions] at hall
  have hvalued := (hall _ (List.mem_singleton.mpr rfl)).valued
  exact absurd (hvalued.mp rfl) (by decide)

end TypedRecords.Query
