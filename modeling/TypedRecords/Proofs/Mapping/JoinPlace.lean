/-
Where a joined entity lives.

A query knows a joined entity by an alias that counts the joined fields declared before it; a
reading takes it out of the attributes under an alias that counts those of them that the record has
an attribute for.  The two are one alias exactly when the record lacks none of them.  A lookup that
is null still counts, and a link that is fetched later counts for neither.
-/
import TypedRecords.Proofs.Mapping.Reading
import TypedRecords.Proofs.Query.Path
import TypedRecords.Proofs.Record

namespace TypedRecords

namespace Mapping

variable {nested : Reader} {vacant : Vacancy} {catalog : Catalog} {s : Schema} {record : Record}
  {f : Field} {before after : List Field} {slot : String} {linked : TypeName} {target : String}
  {rest : List String}

/-! ### Counting -/

/-- All joined fields are met when each of them has an attribute. -/
theorem met_eq_iff (record : Record) (fields : List Field) :
    met record fields = (fields.filter Field.isJoined).length ↔
      ∀ g ∈ fields, g.isJoined = true → (record.get? g.wire).isSome = true := by
  have hfilter : met record fields
      = ((fields.filter Field.isJoined).filter fun g => (record.get? g.wire).isSome).length := by
    unfold met
    rw [List.filter_filter]
    congr 2
    funext g
    exact Bool.and_comm ..
  rw [hfilter, List.length_filter_eq_length_iff]
  constructor
  · intro h g hg hjoined
    exact h g (List.mem_filter.mpr ⟨hg, hjoined⟩)
  · intro h g hg
    obtain ⟨hg, hjoined⟩ := List.mem_filter.mp hg
    exact h g hg hjoined

/-! ### The alias of a query -/

theorem isJoined_of_link (hbinding : f.binding = .link slot linked) (heager : f.eager = false) :
    f.isLink = true ∧ f.isJoined = true := by
  have hlink := Schema.isLink_of_binding hbinding
  refine ⟨hlink, ?_⟩
  unfold Field.isJoined
  rw [hlink, heager]
  rfl

/-- A path into a joined entity leads to the alias that counts the joined fields declared before. -/
theorem alias_of_resolve (hb : s.Built) (hm : (s.fields.map Field.member).Nodup)
    (hsplit : s.fields = before ++ f :: after) (hbinding : f.binding = .link slot linked)
    (heager : f.eager = false) (htargets : f.targets = target :: rest) {inner : String}
    (hinner : Schema.isIdentityName inner = false) {found : Query.ResolvedField}
    (h : Query.resolve catalog s [f.member, inner] = .ok found) :
    found.joinName = some (joinAlias target ((before.filter Field.isJoined).length + 1)) := by
  obtain ⟨-, hjoined⟩ := isJoined_of_link hbinding heager
  obtain ⟨attr, hresolve⟩ := Query.resolve_of_joined hb hm hsplit hjoined htargets hinner
  cases hresolve.symm.trans h
  rfl

/-! ### The alias of a reading -/

/-- A lookup comes in as it is, or not at all. -/
theorem incoming_reference {r : Reference} {value : Scalar}
    (h : incoming .empty f (.reference r) = .ok value) : value = .reference r := by
  rw [incoming_empty] at h
  exact Scalar.sent_reference h

/-- A joined field with a lookup to its first target is filled from the attributes under the alias
of its place. -/
theorem Filled.of_reference (hb : s.Built) (hf : f ∈ s.fields)
    (hbinding : f.binding = .link slot linked) (heager : f.eager = false)
    (htargets : f.targets = target :: rest) {r : Reference} (hr : r.entity = target)
    (hget : record.get? f.wire = some (.reference r)) {place : Nat} {c c' : Entity}
    (hfilled : Filled nested vacant s .empty record place f c c') :
    ∃ child, nested linked (record.extract target place) = .ok child ∧
      c' = c.setLink slot (some (settle
        { record := record.extract target place, parent := some record.id, lookup := some r }
        child)) := by
  obtain ⟨hlink, -⟩ := isJoined_of_link hbinding heager
  obtain ⟨link, hchild, -, hfind⟩ := hb.findLink?_first hf hlink htargets
  have hcontent : content s record place f (.reference r) = .ok (some
      { record := record.extract target place, parent := some record.id, lookup := some r }) := by
    unfold content
    rw [if_neg (by simp [heager])]
    simp only [joined, lookup?, Option.map_some, hr, hfind, hchild]
    rfl
  cases hfilled with
  | untouched habsent => cases habsent.symm.trans hget
  | scalar hscalar _ _ _ => cases hscalar.symm.trans hbinding
  | cleared hlinked hraw hvalue hnone =>
      cases hraw.symm.trans hget
      rw [incoming_reference hvalue, hcontent] at hnone
      cases hnone
  | linked hlinked hraw hvalue hsome hread =>
      cases hraw.symm.trans hget
      cases hlinked.symm.trans hbinding
      rw [incoming_reference hvalue, hcontent] at hsome
      cases hsome
      exact ⟨_, hread, rfl⟩

/-! ### The two sides -/

/-- A link of an entity is filled from what a record has under an alias. -/
def FilledFrom (catalog : Catalog) (record : Record) (joinName : String) (linked : TypeName)
    (held : Option Entity) : Prop :=
  ∃ content child, record.FlattenedUnder joinName content.record ∧
    Entity.ofRecord catalog .empty linked content.record = .ok child ∧
    held = some (settle content child)

/-- **A joined member is filled from the attributes under one alias**, the one that counts the
joined fields met before it.  That is the alias a query knows the member's entity by exactly when
the record has an attribute, be it null, for every joined field declared before.

Only a later field of the same slot that has an attribute too can put something else there. -/
theorem joined_member_filled {type : TypeName} {e : Entity} {r : Reference}
    {inner attr joinName : String}
    (hs : catalog.schema? type = some s) (hm : (s.fields.map Field.member).Nodup)
    (hblank : record.isBlank = false) (hsplit : s.fields = before ++ f :: after)
    (hbinding : f.binding = .link slot linked) (heager : f.eager = false)
    (htargets : f.targets = target :: rest) (hget : record.get? f.wire = some (.reference r))
    (hr : r.entity = target) (hinner : Schema.isIdentityName inner = false)
    (hresolve : Query.resolve catalog s [f.member, inner] = .ok ⟨attr, some joinName⟩)
    (hread : Entity.ofRecord catalog .empty type record = .ok e) :
    (joinAlias target (met record before + 1) = joinName ↔
      ∀ g ∈ before, g.isJoined = true → (record.get? g.wire).isSome = true) ∧
    ((∀ g ∈ after, g.binding.place = f.binding.place → record.get? g.wire = none) →
      FilledFrom catalog record (joinAlias target (met record before + 1)) linked
        (e.link? slot)) := by
  have hb := Catalog.built_of_schema? hs
  have hf : f ∈ s.fields := by simp [hsplit]
  constructor
  · have halias := alias_of_resolve hb hm hsplit hbinding heager htargets hinner hresolve
    rw [Option.some.inj halias, joinAlias_inj, Nat.add_right_cancel_iff, met_eq_iff]
  · intro hown
    rw [ofRecord_mapped hs hblank, hsplit] at hread
    obtain ⟨c, c', next, -, hfilled, hafter⟩ := fillAll_split hread
    obtain ⟨child, hchild, rfl⟩ :=
      hfilled.of_reference hb hf hbinding heager htargets hr hget
    rw [Nat.add_comm 1] at hchild hafter
    refine ⟨{ record := record.extract target (met record before + 1),
              parent := some record.id, lookup := some r }, child,
      Record.flattenedUnder_extract .., ofRecord_of_nested hchild, ?_⟩
    refine fillAll_keeps (P := fun c => c.link? slot = some (settle _ child)) ?_
      (Entity.link?_setLink_self ..) hafter
    intro g hg place c c' hc hstep
    by_cases hplace : g.binding.place = f.binding.place
    · rw [hstep.eq_of_absent (hown g hg hplace)]
      exact hc
    · rw [hbinding] at hplace
      exact (hstep.link?_of_ne hplace).trans hc

/-! ### Accounts with two contacts -/

/-- A catalog of accounts with two joined contacts. -/
def clients : Catalog where
  describe
    | "Account" =>
        { names := ["account"]
          declarations :=
            [.link "primary" "Contact" "primary_contact" "primarycontactid" [],
              .link "billing" "Contact" "billing_contact" "billingcontactid" []] }
    | "Contact" =>
        { names := ["contact"]
          declarations := [.scalar ⟨"first", .plain .string⟩ "first_name" "firstname"] }
    | _ => {}

/-- The schema of accounts with two contacts. -/
def clientSchema : Schema :=
  .ofDeclarations clients.names (clients.names "Account") (clients.describe "Account").declarations

/-- The first joined field of an account. -/
def primaryContact : Field :=
  { member := "primary_contact", wire := "primarycontactid",
    binding := .link "primary" "Contact", targets := ["contact"] }

/-- The second joined field of an account. -/
def billingContact : Field :=
  { member := "billing_contact", wire := "billingcontactid",
    binding := .link "billing" "Contact", targets := ["contact"] }

/-- The lookup to Ann. -/
def ann : Reference := ⟨"contact", ⟨2, by decide⟩⟩

/-- An account whose primary contact is null and whose billing contact is Ann. -/
def billed : Record :=
  ((({ entity := "account", id := ⟨1, by decide⟩ } : Record).set "primarycontactid" .null).set
    "billingcontactid" (.reference ann)).set "contact2.firstname" (.string "Ann")

theorem joined_member_filled_billed :
    ∃ e, clients.schema? "Account" = some clientSchema ∧
      clientSchema.fields = [primaryContact] ++ billingContact :: [] ∧
      (clientSchema.fields.map Field.member).Nodup ∧ billed.isBlank = false ∧
      billed.get? billingContact.wire = some (.reference ann) ∧
      Query.resolve clients clientSchema [billingContact.member, "first_name"]
        = .ok ⟨"firstname", some "contact2"⟩ ∧
      Entity.ofRecord clients .empty "Account" billed = .ok e ∧
      FilledFrom clients billed "contact2" "Contact" (e.link? "billing") := by
  have hs : clients.schema? "Account" = some clientSchema := rfl
  have hm : (clientSchema.fields.map Field.member).Nodup := by decide +kernel
  have hsplit : clientSchema.fields = [primaryContact] ++ billingContact :: [] := rfl
  have hget : billed.get? billingContact.wire = some (.reference ann) := rfl
  have hresolve : Query.resolve clients clientSchema [billingContact.member, "first_name"]
      = .ok ⟨"firstname", some "contact2"⟩ := rfl
  have hread : ∃ e, Entity.ofRecord clients .empty "Account" billed = .ok e := ⟨_, rfl⟩
  obtain ⟨e, hread⟩ := hread
  obtain ⟨hagree, hfilled⟩ :=
    joined_member_filled hs hm rfl hsplit rfl rfl rfl hget rfl rfl hresolve hread
  have hmet : ∀ g ∈ [primaryContact], g.isJoined = true →
      (billed.get? g.wire).isSome = true := by
    intro g hg _
    rw [List.mem_singleton.mp hg]
    rfl
  rw [hagree.mpr hmet] at hfilled
  exact ⟨e, hs, hsplit, hm, rfl, hget, hresolve, hread, hfilled nofun⟩

/-- The same account without an attribute for its primary contact. -/
def unbilled : Record := billed.erase "primarycontactid"

/-- Without an attribute for the primary contact the billing one is not filled from the attributes
under its own alias. -/
theorem not_filled_from_alias :
    ∃ e, clients.schema? "Account" = some clientSchema ∧
      billingContact ∈ clientSchema.fields ∧
      (clientSchema.fields.map Field.member).Nodup ∧ unbilled.isBlank = false ∧
      unbilled.get? billingContact.wire = some (.reference ann) ∧
      Query.resolve clients clientSchema [billingContact.member, "first_name"]
        = .ok ⟨"firstname", some "contact2"⟩ ∧
      Entity.ofRecord clients .empty "Account" unbilled = .ok e ∧
      ¬FilledFrom clients unbilled "contact2" "Contact" (e.link? "billing") := by
  have hs : clients.schema? "Account" = some clientSchema := rfl
  have hcontact : ∃ contactSchema, clients.schema? "Contact" = some contactSchema := ⟨_, rfl⟩
  obtain ⟨contactSchema, hcontact⟩ := hcontact
  have hread : ∃ e, Entity.ofRecord clients .empty "Account" unbilled = .ok e ∧
      (e.link? "billing").map (·.header.record) = some none := ⟨_, rfl, rfl⟩
  obtain ⟨e, hread, hlink⟩ := hread
  have hsplit : clientSchema.fields = [primaryContact, billingContact] := rfl
  refine ⟨e, hs, by simp [hsplit], by decide +kernel, rfl, rfl, rfl, hread, ?_⟩
  rintro ⟨content, child, hflat, hchild, hheld⟩
  -- what lies under the alias is not blank, so the linked entity would hold it as its record
  have hname : (content.record.get? "firstname").isSome = true :=
    hflat.every "firstname" (.string "Ann") rfl
  have hnonblank : content.record.isBlank = false := by
    cases hblank : content.record.isBlank with
    | false => rfl
    | true =>
        rw [Record.get?_of_isBlank hblank] at hname
        cases hname
  have hrecord : child.header.record = some content.record :=
    record_of_ofRecord hcontact hnonblank hchild
  have hnone : child.header.record = none := by
    rw [hheld] at hlink
    exact Option.some.inj hlink
  rw [hnone] at hrecord
  cases hrecord

end Mapping

end TypedRecords
