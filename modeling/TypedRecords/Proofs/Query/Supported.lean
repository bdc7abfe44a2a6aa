/-
Which predicates compile, and what the others fail with.

`Resolvable` says which paths lead to an attribute and `Supported` which leaves have a condition; both
look at nothing but the schema's fields.  `Strays` and `FailsBy` name what is wrong with the others.  A
method is looked at before its arguments, and those before its path, so a leaf with several things
wrong has one fault, and every leaf either is supported or has its fault.

The compiler builds a tree, but it comes to the leaves from left to right and stops at the first that
fails: it fails just as going through the list of leaves does (`leaves_child`).  What it makes of a
whole predicate follows from what it makes of one leaf.
-/
import TypedRecords.Proofs.Query.Path
import TypedRecords.Proofs.Query.Search

namespace TypedRecords.Query

/-! ### The identity's names -/

/-- A letter in lower case comes from itself or from its capital. -/
theorem toLower_eq_iff {c lower upper : Char} (hupper : 'A' ≤ upper ∧ upper ≤ 'Z')
    (hlower : upper.toNat + 32 = lower.toNat) : c.toLower = lower ↔ c = lower ∨ c = upper := by
  have hrange : 65 ≤ upper.toNat ∧ upper.toNat ≤ 90 := hupper
  have hval : c.toLower.toNat
      = if 65 ≤ c.toNat ∧ c.toNat ≤ 90 then c.toNat + 32 else c.toNat := by
    unfold Char.toLower
    by_cases h : c.val ≥ 'A'.val ∧ c.val ≤ 'Z'.val
    · have hcapital : 65 ≤ c.toNat ∧ c.toNat ≤ 90 := h
      rw [dif_pos h, if_pos hcapital]
      show (c.val + 32).toNat = c.val.toNat + 32
      rw [UInt32.toNat_add]
      have hsmall : c.val.toNat ≤ 90 := hcapital.2
      exact Nat.mod_eq_of_lt (by simp; omega)
    · have hother : ¬(65 ≤ c.toNat ∧ c.toNat ≤ 90) := h
      rw [dif_neg h, if_neg hother]
  rw [← Char.toNat_inj, ← Char.toNat_inj, ← Char.toNat_inj, hval]
  split
  · omega
  · omega

/-- The names that stand for the identity. -/
def identityNames : List String := ["id", "iD", "Id", "ID"]

theorem isIdentityName_iff {name : String} :
    Schema.isIdentityName name = true ↔ name ∈ identityNames := by
  have hi : ∀ c : Char, c.toLower = 'i' ↔ c = 'i' ∨ c = 'I' := fun c =>
    toLower_eq_iff (by decide) rfl
  have hd : ∀ c : Char, c.toLower = 'd' ↔ c = 'd' ∨ c = 'D' := fun c =>
    toLower_eq_iff (by decide) rfl
  have hnames : name ∈ identityNames ↔ name.toList ∈ identityNames.map String.toList := by
    rw [List.mem_map_of_injective fun _ _ => String.ext]
  unfold Schema.isIdentityName
  rw [decide_eq_true_iff, hnames, List.map_eq_cons_iff]
  constructor
  · rintro ⟨c, rest, hname, hc, hrest⟩
    obtain ⟨d, rest, rfl, hd', hrest⟩ := List.map_eq_cons_iff.mp hrest
    rw [List.map_eq_nil_iff] at hrest
    rw [hname, hrest]
    rcases (hi c).mp hc with rfl | rfl <;> rcases (hd d).mp hd' with rfl | rfl <;>
      simp [identityNames]
  · intro hmem
    simp only [identityNames, List.map_cons, List.map_nil, List.mem_cons, List.not_mem_nil,
      or_false] at hmem
    rcases hmem with h | h | h | h <;> exact ⟨_, _, h, by decide, by decide⟩

theorem isIdentityName_of_notMem {name : String} (h : name ∉ identityNames) :
    Schema.isIdentityName name = false :=
  Bool.eq_false_iff.mpr (mt isIdentityName_iff.mp h)

/-! ### What is supported, and what is wrong with the rest -/

/-- A path that leads to an attribute. -/
inductive Resolvable (s : Schema) : List String → Prop
  /-- Any one name: a member, the identity, or an attribute of that name. -/
  | own (name : String) : Resolvable s [name]
  /-- The identity of a linked entity. -/
  | identity {f : Field} {inner : String} (hf : f ∈ s.fields) (hlink : f.isLink = true)
      (hinner : inner ∈ identityNames) : Resolvable s [f.member, inner]
  /-- Any name in an entity that is joined. -/
  | joined {f : Field} (inner : String) (hf : f ∈ s.fields) (hlink : f.isLink = true)
      (heager : f.eager = false) (htargets : f.targets ≠ []) : Resolvable s [f.member, inner]

/-- The methods that have an operator. -/
def methods : List String := ["starts_with", "ends_with", "contains"]

/-- A leaf that has a condition. -/
inductive Predicate.Supported (s : Schema) : Predicate → Prop
  | compare {path : List String} {op : Comparison} {operand : Operand}
      (hpath : Resolvable s path) : Supported s (.compare path op operand)
  | call {path : List String} {method : String} {argument : Operand} (hmethod : method ∈ methods)
      (hpath : Resolvable s path) : Supported s (.call path method [argument])

/-- What can be wrong with a leaf. -/
inductive Fault where
  | negation
  | bareMember
  | unknownMethod
  | argumentCount
  | pathLength
  /-- The first of two members is not a linked one. -/
  | notALink
  /-- The first of two members is fetched after the query. -/
  | followUpLink
  /-- The first of two members is joined, and has no entity to point at. -/
  | noTarget
deriving DecidableEq

/-- The label of the errors for a fault. -/
def Fault.label : Fault → String
  | negation | bareMember | followUpLink => "UnsupportedExpression"
  | unknownMethod => "UnsupportedMethod"
  | argumentCount => "InvalidArgument"
  | pathLength => "MemberChainTooDeep"
  | notALink | noTarget => "NotALink"

/-- A path leads nowhere, by a fault and with an error. -/
inductive Strays (s : Schema) : List String → Fault → CompileError → Prop
  | empty : Strays s [] .pathLength (.chainTooDeep [])
  | long {first second third : String} {rest : List String} :
      Strays s (first :: second :: third :: rest) .pathLength
        (.chainTooDeep (first :: second :: third :: rest))
  | notALink {outer inner : String} (hnone : ∀ f ∈ s.fields, f.member = outer → f.isLink = false) :
      Strays s [outer, inner] .notALink (.notALink s.entity outer)
  | followUpLink {f : Field} {inner : String} (hf : f ∈ s.fields) (hlink : f.isLink = true)
      (heager : f.eager = true) (hinner : inner ∉ identityNames) :
      Strays s [f.member, inner] .followUpLink (.followUpLink f.member inner)
  | noTarget {f : Field} {inner : String} (hf : f ∈ s.fields) (hlink : f.isLink = true)
      (heager : f.eager = false) (htargets : f.targets = []) (hinner : inner ∉ identityNames) :
      Strays s [f.member, inner] .noTarget (.notALink s.entity f.member)

/-- A leaf has no condition, by a fault and with an error. -/
inductive Predicate.FailsBy (s : Schema) : Predicate → Fault → CompileError → Prop
  | negation {inner : Predicate} : FailsBy s (.not inner) .negation .negation
  | bareMember {path : List String} : FailsBy s (.member path) .bareMember (.bareMember path)
  | comparison {path : List String} {op : Comparison} {operand : Operand} {fault : Fault}
      {e : CompileError} (hpath : Strays s path fault e) :
      FailsBy s (.compare path op operand) fault e
  | unknownMethod {path : List String} {method : String} {args : List Operand}
      (hmethod : method ∉ methods) :
      FailsBy s (.call path method args) .unknownMethod (.unsupportedMethod method)
  | argumentCount {path : List String} {method : String} {args : List Operand}
      (hmethod : method ∈ methods) (hargs : args.length ≠ 1) :
      FailsBy s (.call path method args) .argumentCount
        (.invalidArgument method ("expected 1 argument, got " ++ Nat.repr args.length))
  | call {path : List String} {method : String} {argument : Operand} {fault : Fault}
      {e : CompileError} (hmethod : method ∈ methods) (hpath : Strays s path fault e) :
      FailsBy s (.call path method [argument]) fault e

variable {catalog : Catalog} {s : Schema} {path : List String} {p : Predicate} {fault : Fault}
  {e : CompileError}

/-! ### Paths -/

theorem Strays.label_eq (h : Strays s path fault e) : e.label = fault.label := by
  cases h <;> rfl

/-- A path leads somewhere or strays. -/
theorem resolvable_or_strays (s : Schema) (path : List String) :
    Resolvable s path ∨ ∃ fault e, Strays s path fault e := by
  match path with
  | [] => exact .inr ⟨_, _, .empty⟩
  | [name] => exact .inl (.own name)
  | _ :: _ :: _ :: _ => exact .inr ⟨_, _, .long⟩
  | [outer, inner] =>
      by_cases hlinked : ∃ f ∈ s.fields, f.member = outer ∧ f.isLink = true
      · obtain ⟨f, hf, rfl, hlink⟩ := hlinked
        by_cases hinner : inner ∈ identityNames
        · exact .inl (.identity hf hlink hinner)
        · cases heager : f.eager with
          | true => exact .inr ⟨_, _, .followUpLink hf hlink heager hinner⟩
          | false =>
              by_cases htargets : f.targets = []
              · exact .inr ⟨_, _, .noTarget hf hlink heager htargets hinner⟩
              · exact .inl (.joined inner hf hlink heager htargets)
      · refine .inr ⟨_, _, .notALink fun f hf hmember => ?_⟩
        exact Bool.eq_false_iff.mpr fun hlink => hlinked ⟨f, hf, hmember, hlink⟩

theorem locate_of_resolvable (hb : s.Built) (hm : (s.fields.map Field.member).Nodup)
    (h : Resolvable s path) : ∃ location, locate s path = .ok location := by
  cases h with
  | own name => exact ⟨_, rfl⟩
  | identity hf hlink hinner =>
      exact ⟨_, locate_of_identity hm hf hlink (isIdentityName_iff.mpr hinner)⟩
  | joined inner hf hlink heager htargets =>
      cases hinner : Schema.isIdentityName inner with
      | true => exact ⟨_, locate_of_identity hm hf hlink hinner⟩
      | false =>
          obtain ⟨before, after, hsplit⟩ := List.append_of_mem hf
          obtain ⟨target, rest, htargets⟩ := List.exists_cons_of_ne_nil htargets
          obtain ⟨linked, hlocate⟩ := locate_of_joined hb hm hsplit
            (by simp [Field.isJoined, hlink, heager]) htargets hinner
          exact ⟨_, hlocate⟩

theorem locate_of_strays (hb : s.Built) (hm : (s.fields.map Field.member).Nodup)
    (h : Strays s path fault e) : locate s path = .error e := by
  cases h with
  | empty => rfl
  | long => rfl
  | @notALink outer inner hnone =>
      show locateLinked s outer inner = _
      unfold locateLinked
      cases hfield : s.field? outer with
      | none => rfl
      | some f =>
          have hmember : f.member = outer := by simpa using List.find?_some hfield
          obtain ⟨slot, hbinding⟩ := Schema.exists_slot_of_not_isLink
            (hnone f (List.mem_of_find?_eq_some hfield) hmember)
          simp only [hbinding]
  | followUpLink hf hlink heager hinner =>
      exact locate_of_eager hm hf hlink heager (isIdentityName_of_notMem hinner)
  | noTarget hf hlink heager htargets hinner =>
      exact locate_of_no_target hb hm hf (by simp [Field.isJoined, hlink, heager]) htargets
        (isIdentityName_of_notMem hinner)

/-! ### Leaves -/

namespace Predicate

theorem FailsBy.label_eq (h : p.FailsBy s fault e) : e.label = fault.label := by
  cases h with
  | comparison hpath => exact hpath.label_eq
  | call _ hpath => exact hpath.label_eq
  | _ => rfl

theorem exists_methodOperator_iff {method : String} :
    (∃ operator, methodOperator method = .ok operator) ↔ method ∈ methods := by
  unfold methodOperator methods
  split <;> simp_all

theorem methodOperator_of_notMem {method : String} (h : method ∉ methods) :
    methodOperator method = .error (.unsupportedMethod method) := by
  unfold methodOperator
  split <;> simp_all [methods]

theorem soleArgument_of_length_ne {method : String} {args : List Operand} (h : args.length ≠ 1) :
    soleArgument method args
      = .error (.invalidArgument method
          ("expected 1 argument, got " ++ Nat.repr args.length)) := by
  unfold soleArgument
  split
  · exact absurd rfl h
  · rfl

/-- What stands below "and" and "or" is supported or has a fault. -/
theorem supported_or_failsBy (s : Schema) (hp : p.isLogical = false) :
    p.Supported s ∨ ∃ fault e, p.FailsBy s fault e := by
  cases p with
  | and left right => cases hp
  | or left right => cases hp
  | not inner => exact .inr ⟨_, _, .negation⟩
  | member path => exact .inr ⟨_, _, .bareMember⟩
  | compare path op operand =>
      rcases resolvable_or_strays s path with hpath | ⟨fault, e, hpath⟩
      · exact .inl (.compare hpath)
      · exact .inr ⟨fault, e, .comparison hpath⟩
  | call path method args =>
      by_cases hmethod : method ∈ methods
      · by_cases hargs : args.length = 1
        · obtain ⟨argument, rfl⟩ := List.length_eq_one_iff.mp hargs
          rcases resolvable_or_strays s path with hpath | ⟨fault, e, hpath⟩
          · exact .inl (.call hmethod hpath)
          · exact .inr ⟨fault, e, .call hmethod hpath⟩
        · exact .inr ⟨_, _, .argumentCount hmethod hargs⟩
      · exact .inr ⟨_, _, .unknownMethod hmethod⟩

theorem condition_of_supported (hb : s.Built) (hm : (s.fields.map Field.member).Nodup)
    (h : p.Supported s) : ∃ c, p.condition catalog s = .ok c := by
  have hresolve : ∀ {path}, Resolvable s path → ∃ field, resolve catalog s path = .ok field := by
    intro path hpath
    obtain ⟨location, hlocate⟩ := locate_of_resolvable hb hm hpath
    exact ⟨_, map_eq_ok.mpr ⟨location, hlocate, rfl⟩⟩
  unfold condition
  cases h with
  | compare hpath =>
      obtain ⟨field, hfield⟩ := hresolve hpath
      exact ⟨_, bind_eq_ok.mpr ⟨_, rfl, bind_eq_ok.mpr ⟨field, hfield, rfl⟩⟩⟩
  | @call path method argument hmethod hpath =>
      obtain ⟨field, hfield⟩ := hresolve hpath
      obtain ⟨operator, hoperator⟩ := exists_methodOperator_iff.mpr hmethod
      have hleaf : (Predicate.call path method [argument]).leaf
          = .ok (path, operator, argument.value) :=
        bind_eq_ok.mpr ⟨operator, hoperator, rfl⟩
      exact ⟨_, bind_eq_ok.mpr ⟨_, hleaf, bind_eq_ok.mpr ⟨field, hfield, rfl⟩⟩⟩

theorem condition_of_failsBy (hb : s.Built) (hm : (s.fields.map Field.member).Nodup)
    (h : p.FailsBy s fault e) : p.condition catalog s = .error e := by
  have hresolve : ∀ {path}, Strays s path fault e → resolve catalog s path = .error e :=
    fun hpath => map_eq_error.mpr (locate_of_strays hb hm hpath)
  unfold condition
  rw [bind_eq_error]
  cases h with
  | negation => exact .inl rfl
  | bareMember => exact .inl rfl
  | comparison hpath => exact .inr ⟨_, rfl, bind_eq_error.mpr (.inl (hresolve hpath))⟩
  | unknownMethod hmethod =>
      exact .inl (bind_eq_error.mpr (.inl (methodOperator_of_notMem hmethod)))
  | @argumentCount path method args hmethod hargs =>
      obtain ⟨operator, hoperator⟩ := exists_methodOperator_iff.mpr hmethod
      exact .inl (bind_eq_error.mpr (.inr ⟨operator, hoperator,
        bind_eq_error.mpr (.inl (soleArgument_of_length_ne hargs))⟩))
  | @call path method argument _ _ hmethod hpath =>
      obtain ⟨operator, hoperator⟩ := exists_methodOperator_iff.mpr hmethod
      have hleaf : (Predicate.call path method [argument]).leaf
          = .ok (path, operator, argument.value) :=
        bind_eq_ok.mpr ⟨operator, hoperator, rfl⟩
      exact .inr ⟨_, hleaf, bind_eq_error.mpr (.inl (hresolve hpath))⟩

/-- A leaf has a condition exactly when it is supported. -/
theorem exists_condition_iff (hb : s.Built) (hm : (s.fields.map Field.member).Nodup)
    (hp : p.isLogical = false) : (∃ c, p.condition catalog s = .ok c) ↔ p.Supported s := by
  constructor
  · rintro ⟨c, hc⟩
    rcases supported_or_failsBy s hp with h | ⟨fault, e, h⟩
    · exact h
    · cases hc.symm.trans (condition_of_failsBy hb hm h)
  · exact condition_of_supported hb hm

/-- A leaf fails with the error for its fault. -/
theorem condition_eq_error_iff (hb : s.Built) (hm : (s.fields.map Field.member).Nodup)
    (hp : p.isLogical = false) :
    p.condition catalog s = .error e ↔ ∃ fault, p.FailsBy s fault e := by
  constructor
  · intro herror
    rcases supported_or_failsBy s hp with h | ⟨fault, e', h⟩
    · have hcondition : ∃ c, p.condition catalog s = .ok c := condition_of_supported hb hm h
      obtain ⟨c, hc⟩ := hcondition
      cases hc.symm.trans herror
    · cases (condition_of_failsBy hb hm h).symm.trans herror
      exact ⟨fault, h⟩
  · rintro ⟨fault, h⟩
    exact condition_of_failsBy hb hm h

/-! ### Whole predicates -/

theorem isLogical_of_mem_leaves {leaf : Predicate} (h : leaf ∈ p.leaves) :
    leaf.isLogical = false := by
  induction p with
  | and left right ihl ihr =>
      rcases List.mem_append.mp h with h | h
      · exact ihl h
      · exact ihr h
  | or left right ihl ihr =>
      rcases List.mem_append.mp h with h | h
      · exact ihl h
      · exact ihr h
  | _ =>
      rw [List.mem_singleton.mp h]
      rfl

/-- The conditions of two children are got one child after the other. -/
theorem leaves_pair (junction : Junction) (a b : Except CompileError FilterChild) :
    FilterChild.leaves <$> (do return .filter junction [← a, ← b])
      = do return (← FilterChild.leaves <$> a) ++ (← FilterChild.leaves <$> b) := by
  cases a with
  | error e => rfl
  | ok a =>
      cases b with
      | error e => rfl
      | ok b =>
          refine congrArg Except.ok ?_
          show a.leaves ++ (b.leaves ++ []) = a.leaves ++ b.leaves
          rw [List.append_nil]

/-- Compiling comes to the leaves from left to right. -/
theorem leaves_child (catalog : Catalog) (s : Schema) (p : Predicate) :
    FilterChild.leaves <$> p.child catalog s = p.leaves.mapM (·.condition catalog s) := by
  induction p with
  | and left right ihl ihr =>
      rw [leaves, List.mapM_append, ← ihl, ← ihr, child]
      exact leaves_pair .and ..
  | or left right ihl ihr =>
      rw [leaves, List.mapM_append, ← ihl, ← ihr, child]
      exact leaves_pair .or ..
  | _ =>
      rw [child_of_leaf rfl, leaves_of_leaf rfl, List.mapM_cons]
      cases condition catalog s _ <;> rfl

theorem exists_toFilter_iff (hb : s.Built) (hm : (s.fields.map Field.member).Nodup) :
    (∃ f, p.toFilter catalog s = .ok f) ↔ ∀ leaf ∈ p.leaves, leaf.Supported s := by
  have hleaves : (∃ f, p.toFilter catalog s = .ok f)
      ↔ ∃ cs, p.leaves.mapM (·.condition catalog s) = .ok cs := by
    rw [← leaves_child]
    constructor
    · rintro ⟨f, hf⟩
      obtain ⟨a, ha, -⟩ := map_eq_ok.mp hf
      exact ⟨_, map_eq_ok.mpr ⟨a, ha, rfl⟩⟩
    · rintro ⟨cs, hcs⟩
      obtain ⟨a, ha, -⟩ := map_eq_ok.mp hcs
      exact ⟨_, map_eq_ok.mpr ⟨a, ha, rfl⟩⟩
  rw [hleaves, exists_mapM_eq_ok_iff]
  constructor
  · intro h leaf hleaf
    exact (exists_condition_iff hb hm (isLogical_of_mem_leaves hleaf)).mp (h leaf hleaf)
  · intro h leaf hleaf
    exact (exists_condition_iff hb hm (isLogical_of_mem_leaves hleaf)).mpr (h leaf hleaf)

theorem toFilter_eq_error_iff (hb : s.Built) (hm : (s.fields.map Field.member).Nodup) :
    p.toFilter catalog s = .error e ↔ ∃ before leaf after fault,
      p.leaves = before ++ leaf :: after ∧ (∀ l ∈ before, l.Supported s) ∧
        leaf.FailsBy s fault e := by
  have hleaves : p.toFilter catalog s = .error e
      ↔ p.leaves.mapM (·.condition catalog s) = .error e := by
    rw [← leaves_child, map_eq_error]
    exact map_eq_error
  rw [hleaves, mapM_eq_error_iff]
  constructor
  · rintro ⟨before, leaf, after, hsplit, hbefore, hleaf⟩
    have hmem : ∀ l ∈ before ++ leaf :: after, l.isLogical = false :=
      fun l hl => isLogical_of_mem_leaves (hsplit ▸ hl)
    obtain ⟨fault, hfault⟩ :=
      (condition_eq_error_iff hb hm (hmem leaf (by simp))).mp hleaf
    exact ⟨before, leaf, after, fault, hsplit,
      fun l hl => (exists_condition_iff hb hm (hmem l (by simp [hl]))).mp (hbefore l hl), hfault⟩
  · rintro ⟨before, leaf, after, fault, hsplit, hbefore, hfault⟩
    exact ⟨before, leaf, after, hsplit, fun l hl => condition_of_supported hb hm (hbefore l hl),
      condition_of_failsBy hb hm hfault⟩

end Predicate

/--
**A predicate compiles exactly when all its leaves are supported, and fails as the leftmost one that
is not.**

An unmapped type compiles nothing.  Over a mapped type whose fields have distinct members, every leaf
below "and" and "or" has to be supported; otherwise the error is the one for the fault of the first
leaf that is not, with the label that goes with the fault.
-/
theorem compile_outcome (catalog : Catalog) (type : TypeName) (p : Predicate) :
    (catalog.schema? type = none → compile catalog type p = .error (.unmappedEntity type)) ∧
    ∀ s, catalog.schema? type = some s → (s.fields.map Field.member).Nodup →
      ((∃ f, compile catalog type p = .ok f) ↔ ∀ leaf ∈ p.leaves, leaf.Supported s) ∧
      ∀ e, compile catalog type p = .error e ↔ ∃ before leaf after fault,
        p.leaves = before ++ leaf :: after ∧ (∀ l ∈ before, l.Supported s) ∧
          leaf.FailsBy s fault e ∧ e.label = fault.label := by
  constructor
  · intro hs
    unfold compile
    rw [hs]
  · intro s hs hm
    have hb := Catalog.built_of_schema? hs
    rw [compile_of_schema hs]
    refine ⟨Predicate.exists_toFilter_iff hb hm, fun e => ?_⟩
    rw [Predicate.toFilter_eq_error_iff hb hm]
    constructor
    · rintro ⟨before, leaf, after, fault, hsplit, hbefore, hfault⟩
      exact ⟨before, leaf, after, fault, hsplit, hbefore, hfault, hfault.label_eq⟩
    · rintro ⟨before, leaf, after, fault, hsplit, hbefore, hfault, -⟩
      exact ⟨before, leaf, after, fault, hsplit, hbefore, hfault⟩

/-! ### Tickets -/

/-- A catalog of tickets: the approver is fetched later, a customer is of one of two entities, and a
topic is of none. -/
def tickets : Catalog where
  describe
    | "Ticket" =>
        { names := ["ticket"]
          declarations :=
            [.scalar ⟨"title", .plain .string⟩ "title" "title",
              .link "approver" "User" "approver" "approverid" [], .eager,
              .link "customer" "Party" "customer" "customerid" ["account", "contact"],
              .link "owner" "User" "owner" "ownerid" [],
              .link "topic" "Party" "topic" "topicid" []] }
    | "User" =>
        { names := ["systemuser"]
          declarations := [.scalar ⟨"name", .plain .string⟩ "full_name" "fullname"] }
    | _ => {}

/-- The schema of tickets. -/
def ticketSchema : Schema :=
  .ofDeclarations tickets.names (tickets.names "Ticket") (tickets.describe "Ticket").declarations

/-- The field of a ticket's approver. -/
def approverField : Field :=
  { member := "approver", wire := "approverid", binding := .link "approver" "User"
    targets := ["systemuser"], eager := true }

/-- The fields of tickets. -/
def ticketFields : List Field :=
  [{ member := "title", wire := "title", binding := .scalar ⟨"title", .plain .string⟩ },
    approverField,
    { member := "customer", wire := "customerid", binding := .link "customer" "Party"
      targets := ["account", "contact"] },
    { member := "owner", wire := "ownerid", binding := .link "owner" "User"
      targets := ["systemuser"] },
    { member := "topic", wire := "topicid", binding := .link "topic" "Party" }]

theorem fields_ticketSchema : ticketSchema.fields = ticketFields := by decide +kernel

/-- Tickets without an approver whose title is long, and tickets that are not closed: of the two
leaves that do not compile the title's length comes first. -/
def lengthy : Predicate :=
  .or (.and (.compare ["approver", "ID"] .eq (.literal .null))
      (.compare ["title", "length"] .gt (.literal (.int 80))))
    (.not (.compare ["closed"] .eq (.literal (.bool true))))

theorem compile_outcome_lengthy :
    tickets.schema? "Ticket" = some ticketSchema ∧
      (ticketSchema.fields.map Field.member).Nodup ∧
      compile tickets "Ticket" lengthy = .error (.notALink "ticket" "title") ∧
      (CompileError.notALink "ticket" "title").label = "NotALink" := by
  have hs : tickets.schema? "Ticket" = some ticketSchema := rfl
  have hm : (ticketSchema.fields.map Field.member).Nodup := by
    rw [fields_ticketSchema]
    decide
  have hleaves : lengthy.leaves = [.compare ["approver", "ID"] .eq (.literal .null)] ++
      .compare ["title", "length"] .gt (.literal (.int 80)) ::
        [.not (.compare ["closed"] .eq (.literal (.bool true)))] := rfl
  have happrover : Resolvable ticketSchema ["approver", "ID"] :=
    .identity (f := approverField) (by simp [fields_ticketSchema, ticketFields]) rfl
      (by simp [identityNames])
  have htitle : Strays ticketSchema ["title", "length"] .notALink (.notALink "ticket" "title") := by
    refine .notALink ?_
    rw [fields_ticketSchema]
    decide
  have hbefore : ∀ l ∈ [Predicate.compare ["approver", "ID"] .eq (.literal .null)],
      l.Supported ticketSchema := by
    intro l hl
    rw [List.mem_singleton.mp hl]
    exact .compare happrover
  obtain ⟨-, hfails⟩ := (compile_outcome tickets "Ticket" lengthy).2 ticketSchema hs hm
  exact ⟨hs, hm, (hfails _).mpr
    ⟨_, _, _, .notALink, hleaves, hbefore, .comparison htitle, rfl⟩, rfl⟩

end TypedRecords.Query
