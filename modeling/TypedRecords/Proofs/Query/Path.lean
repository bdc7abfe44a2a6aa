/-
Where paths through linked members lead.

What two members lead to hangs on the field of the first: whether it is a linked one, whether it is
joined, and whether it has an entity to point at.  There is one lemma for each way, and a path into a
joined entity has its alias from the fields declared before.
-/
import TypedRecords.Proofs.Outcome
import TypedRecords.Proofs.Schema
import TypedRecords.Query.Path

namespace TypedRecords.Query

variable {catalog : Catalog} {s : Schema} {f : Field} {before after : List Field}
  {target inner : String} {rest : List String}

/-! ### Two members -/

/-- The identity of a linked entity is in the lookup attribute. -/
theorem locate_of_identity (hm : (s.fields.map Field.member).Nodup) (hf : f ∈ s.fields)
    (hlink : f.isLink = true) (hinner : Schema.isIdentityName inner = true) :
    locate s [f.member, inner] = .ok (.own f.wire) := by
  obtain ⟨slot, linked, hbinding⟩ := Schema.exists_link_of_isLink hlink
  simp only [locate, locateLinked, Schema.field?_of_mem hm hf, hbinding, hinner, if_true]

/-- There is no way into an entity that is fetched after the query. -/
theorem locate_of_eager (hm : (s.fields.map Field.member).Nodup) (hf : f ∈ s.fields)
    (hlink : f.isLink = true) (heager : f.eager = true)
    (hinner : Schema.isIdentityName inner = false) :
    locate s [f.member, inner] = .error (.followUpLink f.member inner) := by
  obtain ⟨slot, linked, hbinding⟩ := Schema.exists_link_of_isLink hlink
  have hplace : s.joinPlace? f.member = none :=
    Schema.joinPlace?_of_not_joined hm hf (by simp [Field.isJoined, heager])
  simp only [locate, locateLinked, Schema.field?_of_mem hm hf, hbinding, hinner,
    Bool.false_eq_true, if_false, hplace]

/-- A joined link may have no entity to point at. -/
theorem locate_of_no_target (hb : s.Built) (hm : (s.fields.map Field.member).Nodup)
    (hf : f ∈ s.fields) (hjoined : f.isJoined = true) (htargets : f.targets = [])
    (hinner : Schema.isIdentityName inner = false) :
    locate s [f.member, inner] = .error (.notALink s.entity f.member) := by
  have hlink : f.isLink = true := (Bool.and_eq_true_iff.mp hjoined).1
  obtain ⟨slot, linked, hbinding⟩ := Schema.exists_link_of_isLink hlink
  obtain ⟨before, after, hsplit⟩ := List.append_of_mem hf
  have hfind : s.findLink? f.wire none = none := by
    rw [hb.findLink?_none hf hlink, htargets]
    rfl
  simp only [locate, locateLinked, Schema.field?_of_mem hm hf, hbinding, hinner,
    Bool.false_eq_true, if_false, Schema.joinPlace?_of_split hm hsplit hjoined, hfind]

/-- Two members lead into an entity that is joined, under the name of the first target and the number
of joined fields so far. -/
theorem locate_of_joined (hb : s.Built) (hm : (s.fields.map Field.member).Nodup)
    (hsplit : s.fields = before ++ f :: after) (hjoined : f.isJoined = true)
    (htargets : f.targets = target :: rest) (hinner : Schema.isIdentityName inner = false) :
    ∃ linked, locate s [f.member, inner] = .ok (.joined linked
      (joinAlias target ((before.filter Field.isJoined).length + 1)) inner) := by
  have hf : f ∈ s.fields := by simp [hsplit]
  have hlink : f.isLink = true := (Bool.and_eq_true_iff.mp hjoined).1
  obtain ⟨slot, linked, hbinding⟩ := Schema.exists_link_of_isLink hlink
  obtain ⟨link, hchild, hfind, -⟩ := hb.findLink?_first hf hlink htargets
  refine ⟨linked, ?_⟩
  simp only [locate, locateLinked, Schema.field?_of_mem hm hf, hbinding, hinner,
    Bool.false_eq_true, if_false, Schema.joinPlace?_of_split hm hsplit hjoined, hfind, hchild]

/-! ### Aliases -/

/-- Whatever the joined type calls its attributes, the alias is the location's. -/
theorem exists_field_joined (catalog : Catalog) (linked : TypeName) (joinName inner : String) :
    ∃ attr, (Location.joined linked joinName inner).field catalog = ⟨attr, some joinName⟩ := by
  cases hlinked : catalog.schema? linked with
  | none => exact ⟨inner, by simp only [Location.field, hlinked]⟩
  | some t => exact ⟨t.resolveKey inner, by simp only [Location.field, hlinked]⟩

/-- A path into a joined entity has the alias that counts the joined fields so far. -/
theorem resolve_of_joined (hb : s.Built) (hm : (s.fields.map Field.member).Nodup)
    (hsplit : s.fields = before ++ f :: after) (hjoined : f.isJoined = true)
    (htargets : f.targets = target :: rest) (hinner : Schema.isIdentityName inner = false) :
    ∃ attr, resolve catalog s [f.member, inner]
      = .ok ⟨attr, some (joinAlias target ((before.filter Field.isJoined).length + 1))⟩ := by
  obtain ⟨linked, hlocate⟩ := locate_of_joined hb hm hsplit hjoined htargets hinner
  obtain ⟨attr, hattr⟩ := exists_field_joined catalog linked _ inner
  exact ⟨attr, map_eq_ok.mpr ⟨_, hlocate, hattr⟩⟩

end TypedRecords.Query
