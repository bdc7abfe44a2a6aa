/-
The joins of a page query and the aliases of the joined entities.

A page query joins the targets of the joined fields, field by field and each field's targets in their
order.  A path into a joined entity has an alias of its own, and the two are numbered apart: an alias
counts fields and a join's position counts targets.  Both counts are over the fields declared before,
so everything is stated at a split of the field table, and the two numbers are the same when each
field before has one target.
-/
import TypedRecords.Proofs.Query.Supported

namespace TypedRecords.Query

/-! ### Joins and aliases -/

/-- The join of a lookup field with one of the entities it may point at. -/
def Join.through (f : Field) (target : String) : Join :=
  { child := target, childField := target ++ "id", parentField := f.wire, kind := .inner }

/-- The joins of the joined fields among some fields: one for each target of each. -/
def joinsOf (fields : List Field) : List Join :=
  (fields.filter Field.isJoined).flatMap fun f => f.targets.map (Join.through f)

/-- The targets of the joined fields among some fields, all together. -/
def joinedTargets (fields : List Field) : List String :=
  (fields.filter Field.isJoined).flatMap (·.targets)

/-- Paths from a field into the entity that it is joined with lead under an alias. -/
def LeadsUnder (catalog : Catalog) (s : Schema) (f : Field) (joinName : String) : Prop :=
  ∀ inner, inner ∉ identityNames →
    ∃ attr, resolve catalog s [f.member, inner] = .ok ⟨attr, some joinName⟩

/-- The first join over a field's attribute is the one with a target, at a position counted from
one. -/
def PageQuery.JoinsFirstAt (q : PageQuery) (f : Field) (target : String) (position : Nat) : Prop :=
  ∃ earlier later, q.joins = earlier ++ Join.through f target :: later ∧
    (∀ j ∈ earlier, j.parentField ≠ f.wire) ∧ position = 1 + earlier.length

variable {catalog : Catalog} {s : Schema} {f : Field} {fields before after : List Field}
  {target : String} {rest : List String} {q : PageQuery}

/-! ### The list of joins -/

theorem joinsOf_append (fields others : List Field) :
    joinsOf (fields ++ others) = joinsOf fields ++ joinsOf others := by
  unfold joinsOf
  rw [List.filter_append, List.flatMap_append]

theorem joinsOf_cons (f : Field) (fields : List Field) :
    joinsOf (f :: fields)
      = (if f.isJoined then f.targets.map (Join.through f) else []) ++ joinsOf fields := by
  unfold joinsOf
  rw [List.filter_cons]
  split
  · rw [List.flatMap_cons]
  · rw [List.nil_append]

theorem length_joinsOf (fields : List Field) :
    (joinsOf fields).length = (joinedTargets fields).length := by
  unfold joinsOf joinedTargets
  simp only [List.length_flatMap, List.length_map]

/-- A join is over the attribute of a joined field. -/
theorem exists_field_of_mem_joinsOf {j : Join} (hj : j ∈ joinsOf fields) :
    ∃ f ∈ fields, f.isJoined = true ∧ j.parentField = f.wire := by
  obtain ⟨f, hf, hj⟩ := List.mem_flatMap.mp hj
  obtain ⟨hf, hjoined⟩ := List.mem_filter.mp hf
  obtain ⟨target, -, rfl⟩ := List.mem_map.mp hj
  exact ⟨f, hf, hjoined, rfl⟩

/-- The join that a page query has for a link. -/
def Join.ofLink (link : Link) : Join :=
  { child := link.childEntity, childField := link.childField, parentField := link.sourceField }

/-- Of a field's links all are joined or none is. -/
theorem joins_linksOf (entity : String) (f : Field) :
    ((Schema.linksOf entity f).filter (!·.eager)).map Join.ofLink
      = if f.isJoined then f.targets.map (Join.through f) else [] := by
  unfold Schema.linksOf Field.isJoined
  cases f.isLink with
  | false => rfl
  | true =>
      cases heager : f.eager with
      | false =>
          rw [if_pos rfl, List.filter_eq_self.mpr]
          · rw [List.map_map]
            rfl
          · simp
      | true =>
          rw [if_pos rfl, List.filter_eq_nil_iff.mpr]
          · rfl
          · simp

/-- The joined links of a built schema are the joins of its fields. -/
theorem joins_joinedLinks (hb : s.Built) : s.joinedLinks.map Join.ofLink = joinsOf s.fields := by
  have hfields : ∀ fields : List Field,
      ((fields.flatMap (Schema.linksOf s.entity)).filter (!·.eager)).map Join.ofLink
        = joinsOf fields := by
    intro fields
    induction fields with
    | nil => rfl
    | cons f fields ih =>
        rw [List.flatMap_cons, List.filter_append, List.map_append, ih, joins_linksOf, joinsOf_cons]
  unfold Schema.joinedLinks
  rw [hb.links]
  exact hfields s.fields

/-! ### Positions -/

/-- The joins of a joined field start after those of the fields declared before it. -/
theorem joinsFirstAt_of_split (hb : s.Built) (hjoins : q.joins = joinsOf s.fields)
    (hsplit : s.fields = before ++ f :: after) (hjoined : f.isJoined = true)
    (htargets : f.targets = target :: rest) :
    q.JoinsFirstAt f target (1 + (joinedTargets before).length) := by
  refine ⟨joinsOf before, rest.map (Join.through f) ++ joinsOf after, ?_, ?_, ?_⟩
  · rw [hjoins, hsplit, joinsOf_append, joinsOf_cons, if_pos hjoined, htargets]
    rfl
  · intro j hj
    obtain ⟨g, hg, -, hwire⟩ := exists_field_of_mem_joinsOf hj
    rw [hwire]
    exact (hb.wire_ne_of_split hsplit).1 g hg
  · rw [length_joinsOf]

/-- A path into a joined entity has the alias that counts the joined fields so far. -/
theorem leadsUnder_of_split (hb : s.Built) (hm : (s.fields.map Field.member).Nodup)
    (hsplit : s.fields = before ++ f :: after) (hjoined : f.isJoined = true)
    (htargets : f.targets = target :: rest) :
    LeadsUnder catalog s f
      (joinAlias target (1 + (before.filter Field.isJoined).length)) := by
  intro inner hinner
  rw [Nat.add_comm]
  exact resolve_of_joined hb hm hsplit hjoined htargets (isIdentityName_of_notMem hinner)

/-- Fields with one target each have as many targets as there are fields. -/
theorem length_joinedTargets_of_single
    (hsingle : ∀ g ∈ fields, g.isJoined = true → g.targets.length = 1) :
    (joinedTargets fields).length = (fields.filter Field.isJoined).length := by
  have hones : (fields.filter Field.isJoined).map (·.targets.length)
      = (fields.filter Field.isJoined).map fun _ => 1 := by
    refine List.map_congr_left fun g hg => ?_
    obtain ⟨hg, hjoined⟩ := List.mem_filter.mp hg
    exact hsingle g hg hjoined
  unfold joinedTargets
  rw [List.length_flatMap, hones]
  simp

/--
**A page query joins every target of every joined field, and aliases count fields where joins count
targets.**

The joins are those of the joined fields, in the order of the fields and of their targets; no other
field has one.  A path into the entity of a joined field has an alias made of the field's first
target and one more than the number of joined fields before; the join with that target is one place
after all targets of the joined fields before.  The two numbers are the same for every field when
each joined field has one target.
-/
theorem joins_and_aliases {type : TypeName} {search : Search} (hs : catalog.schema? type = some s)
    (hm : (s.fields.map Field.member).Nodup) (hq : search.toPageQuery catalog s = .ok q) :
    q.joins = joinsOf s.fields ∧
    (∀ f ∈ s.fields, f.isJoined = false → ∀ j ∈ q.joins, j.parentField ≠ f.wire) ∧
    (∀ before f after target rest, s.fields = before ++ f :: after → f.isJoined = true →
      f.targets = target :: rest →
      LeadsUnder catalog s f (joinAlias target (1 + (before.filter Field.isJoined).length)) ∧
        q.JoinsFirstAt f target (1 + (joinedTargets before).length)) ∧
    ((∀ f ∈ s.fields, f.isJoined = true → f.targets.length = 1) →
      ∀ f ∈ s.fields, f.isJoined = true → ∃ target n, f.targets = [target] ∧
        LeadsUnder catalog s f (joinAlias target n) ∧ q.JoinsFirstAt f target n) := by
  have hb := Catalog.built_of_schema? hs
  have hjoins : q.joins = joinsOf s.fields :=
    (joins_of_toPageQuery hq).2.trans (joins_joinedLinks hb)
  refine ⟨hjoins, ?_, ?_, ?_⟩
  · intro f hf hjoined j hj hwire
    rw [hjoins] at hj
    obtain ⟨g, hg, hgjoined, hgwire⟩ := exists_field_of_mem_joinsOf hj
    rw [hb.field_unique hg hf (hgwire.symm.trans hwire), hjoined] at hgjoined
    cases hgjoined
  · intro before f after target rest hsplit hjoined htargets
    exact ⟨leadsUnder_of_split hb hm hsplit hjoined htargets,
      joinsFirstAt_of_split hb hjoins hsplit hjoined htargets⟩
  · intro hsingle f hf hjoined
    obtain ⟨target, htarget⟩ := List.length_eq_one_iff.mp (hsingle f hf hjoined)
    obtain ⟨before, after, hsplit⟩ := List.append_of_mem hf
    have hcount : (joinedTargets before).length = (before.filter Field.isJoined).length :=
      length_joinedTargets_of_single fun g hg => hsingle g (by simp [hsplit, hg])
    refine ⟨target, 1 + (joinedTargets before).length, htarget, ?_,
      joinsFirstAt_of_split hb hjoins hsplit hjoined htarget⟩
    rw [hcount]
    exact leadsUnder_of_split hb hm hsplit hjoined htarget

/-- The field of a ticket's owner. -/
def ownerField : Field :=
  { member := "owner", wire := "ownerid", binding := .link "owner" "User"
    targets := ["systemuser"] }

/-- After a customer that is of one of two entities, a ticket's owner has the second alias and the
third join. -/
theorem joins_and_aliases_owner :
    ∃ q, ({} : Search).toPageQuery tickets ticketSchema = .ok q ∧
      tickets.schema? "Ticket" = some ticketSchema ∧
      (ticketSchema.fields.map Field.member).Nodup ∧
      LeadsUnder tickets ticketSchema ownerField "systemuser2" ∧
      q.JoinsFirstAt ownerField "systemuser" 3 := by
  have hs : tickets.schema? "Ticket" = some ticketSchema := rfl
  have hm : (ticketSchema.fields.map Field.member).Nodup := by
    rw [fields_ticketSchema]
    decide
  have hq : ∃ q, ({} : Search).toPageQuery tickets ticketSchema = .ok q := ⟨_, rfl⟩
  obtain ⟨q, hq⟩ := hq
  have hsplit : ticketSchema.fields
      = ticketFields.take 3 ++ ownerField :: ticketFields.drop 4 := by
    rw [fields_ticketSchema]
    rfl
  obtain ⟨-, -, hfields, -⟩ := joins_and_aliases hs hm hq
  obtain ⟨halias, hfirst⟩ := hfields _ _ _ _ _ hsplit rfl rfl
  exact ⟨q, hq, hs, hm, halias, hfirst⟩

end TypedRecords.Query
