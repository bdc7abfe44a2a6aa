/-
The name that a linked entity goes by.

A type's schema trims the names that the type declares; a link to the type takes the first of them
as it is declared.  The two are one name exactly when that name has no blanks around it, and then
everything that is done for the link is done under the name that the linked type itself goes by:
joins and their aliases, the attributes that a joined record is flattened into, and the check of
what a lookup points at.  With blanks around it the link leads to an entity that no search asks for
and no record belongs to.
-/
import TypedRecords.Proofs.Mapping.WriteBack
import TypedRecords.Proofs.Query.Search
import TypedRecords.Proofs.Schema.Replay

namespace TypedRecords

open Query (Search PageQuery)

variable {catalog : Catalog} {namesOf : TypeName → List String} {names : List String}
  {declarations : List Declaration} {s l : Schema} {f : Field} {slot name : String}
  {linked : TypeName} {others : List String}

/-! ### The two names -/

/-- A linked field points at its type's first name, as the type declares it. -/
theorem Schema.targets_of_names (hs : ofDeclarations namesOf names declarations = s)
    (hf : f ∈ s.fields) (hbinding : f.binding = .link slot linked)
    (hnames : namesOf linked = name :: others) : f.targets = [name] := by
  subst hs
  obtain ⟨_, declaration, _, declared, -, hfield, -, rfl⟩ := latest_of_mem hf
  cases declaration with
  | scalar slot member wire =>
      cases hfield
      cases hbinding
  | link slot linked member wire targets =>
      simp only [Declaration.field?] at hfield
      cases hfield
      cases hbinding
      simp only [Field.modified, hnames]
  | _ => cases hfield

theorem Schema.entity_replay (declarations : List Declaration) : ∀ d : Draft,
    (declarations.foldl (Draft.declare namesOf) d).schema.entity = d.schema.entity := by
  induction declarations with
  | nil => intro d; rfl
  | cons declaration rest ih =>
      intro d
      rw [List.foldl_cons, ih]
      cases declaration with
      | scalar slot member wire => rw [Draft.declare, Draft.schema_push]
      | link slot linked member wire targets => rw [Draft.declare, Draft.schema_push]
      | choice => rw [Draft.declare, Draft.schema_modifyLast]
      | eager => rw [Draft.declare, Draft.schema_modifyLast]
      | readOnly => rw [Draft.declare, Draft.schema_modifyLast]
      | _ => rfl

/-- A mapped type goes by its first name, trimmed. -/
theorem Catalog.entity_of_schema? (hl : catalog.schema? linked = some l) :
    ∃ name others, catalog.names linked = name :: others ∧ l.entity = Text.trim name := by
  unfold Catalog.schema? Catalog.isMapped at hl
  cases hnames : catalog.names linked with
  | nil =>
      rw [hnames] at hl
      cases hl
  | cons name others =>
      rw [hnames] at hl
      cases hl
      refine ⟨name, others, rfl, ?_⟩
      exact Schema.entity_replay _ _

/-! ### What goes by which name -/

/-- What is done for the one link of a field goes by the name that the link leads to. -/
structure LinkedAs (catalog : Catalog) (s : Schema) (f : Field) (link : Link) : Prop where
  /-- A search joins the link's entity, unless the field is fetched later. -/
  joins : ∀ (search : Search) (q : PageQuery), search.toPageQuery catalog s = .ok q →
    q.joins.filter (·.parentField = f.wire)
      = if f.eager then []
        else [{ child := link.childEntity, childField := link.childField, parentField := f.wire }]
  /-- A path into the field's entity leads to an alias of the name. -/
  aliases : ∀ (inner joinName member : String) (linked : TypeName),
    s.field? f.member = some f →
    Query.locate s [f.member, inner] = .ok (.joined linked joinName member) →
    ∃ place, s.joinPlace? f.member = some place ∧ joinName = joinAlias link.childEntity place
  /-- The field's entity is filled from the attributes under an alias of the name. -/
  flattened : ∀ (record : Record) (place : Nat) (value : Scalar) (content : Linked),
    Mapping.joined s record place f value = .ok (some content) →
    content.record = record.extract link.childEntity place
  /-- A lookup is followed when it points at that name. -/
  checked : ∀ (record : Record) (place : Nat) (r : Reference),
    (∃ content, Mapping.joined s record place f (.reference r) = .ok content)
      ↔ r.entity = link.childEntity

/-- Searches for a mapped type and records of it go by one name. -/
structure GoesBy (catalog : Catalog) (type : TypeName) (l : Schema) (name : String) : Prop where
  searches : ∀ (search : Search) (q : PageQuery), search.toPageQuery catalog l = .ok q →
    q.entity = name
  records : ∀ (converters : Converters) (e : Entity) (record : Record),
    e.toRecord catalog converters type = .ok record → record.entity = name

namespace Schema

variable {link : Link}

/-- The only link of an attribute is the one that is found. -/
theorem eq_of_findLink? (hlinks : s.linksFrom f.wire = [link]) {target : Option String}
    {found : Link} (h : s.findLink? f.wire target = some found) : found = link := by
  have hmem : found ∈ s.linksFrom f.wire := by
    cases target with
    | none => exact List.mem_of_head? h
    | some target => exact List.mem_of_find?_eq_some h
  rw [hlinks] at hmem
  exact List.mem_singleton.mp hmem

theorem filter_joins (hlinks : s.linksFrom f.wire = [link]) (heager : link.eager = f.eager)
    {search : Search} {q : PageQuery} (hq : search.toPageQuery catalog s = .ok q) :
    q.joins.filter (·.parentField = f.wire)
      = if f.eager then []
        else [{ child := link.childEntity, childField := link.childField,
                parentField := f.wire }] := by
  have hsource : link.sourceField = f.wire := by
    have hmem : link ∈ s.linksFrom f.wire := by rw [hlinks]; simp
    simpa using (List.mem_filter.mp hmem).2
  have hjoined : s.joinedLinks.filter (·.sourceField = f.wire) = [link].filter (!·.eager) := by
    rw [← hlinks]
    unfold joinedLinks linksFrom
    rw [List.filter_filter, List.filter_filter]
    congr 1
    funext other
    exact Bool.and_comm ..
  rw [(Query.joins_of_toPageQuery hq).2, List.filter_map]
  show List.map _ (s.joinedLinks.filter (·.sourceField = f.wire)) = _
  rw [hjoined]
  cases hf : f.eager with
  | true => simp [heager, hf]
  | false => simp [heager, hf, hsource]

theorem alias_of_locate (hlinks : s.linksFrom f.wire = [link]) {inner joinName member : String}
    {linked : TypeName} (hfield : s.field? f.member = some f)
    (h : Query.locate s [f.member, inner] = .ok (.joined linked joinName member)) :
    ∃ place, s.joinPlace? f.member = some place ∧ joinName = joinAlias link.childEntity place := by
  have h : Query.locateLinked s f.member inner = .ok (.joined linked joinName member) := h
  unfold Query.locateLinked at h
  simp only [hfield] at h
  cases hbinding : f.binding with
  | scalar slot =>
      rw [hbinding] at h
      cases h
  | link slot other =>
      simp only [hbinding] at h
      by_cases hinner : isIdentityName inner = true
      · rw [if_pos hinner] at h
        cases h
      · rw [if_neg hinner] at h
        cases hplace : s.joinPlace? f.member with
        | none =>
            rw [hplace] at h
            cases h
        | some place =>
            simp only [hplace] at h
            cases hfind : s.findLink? f.wire none with
            | none =>
                rw [hfind] at h
                cases h
            | some found =>
                rw [hfind, eq_of_findLink? hlinks hfind] at h
                cases h
                exact ⟨place, rfl, rfl⟩

theorem record_of_joined (hlinks : s.linksFrom f.wire = [link]) {record : Record} {place : Nat}
    {value : Scalar} {content : Linked}
    (h : Mapping.joined s record place f value = .ok (some content)) :
    content.record = record.extract link.childEntity place := by
  unfold Mapping.joined at h
  by_cases hnull : value.isNull = true
  · rw [if_pos hnull] at h
    cases h
  · rw [if_neg hnull] at h
    dsimp only at h
    split at h
    · cases h
    · rename_i found hfind
      rw [eq_of_findLink? hlinks hfind] at h
      cases h
      rfl

theorem joined_reference_iff (hlinks : s.linksFrom f.wire = [link]) (record : Record) (place : Nat)
    (r : Reference) :
    (∃ content, Mapping.joined s record place f (.reference r) = .ok content)
      ↔ r.entity = link.childEntity := by
  have hfind : s.findLink? f.wire (some r.entity)
      = if link.childEntity = r.entity then some link else none := by
    show (s.linksFrom f.wire).find? _ = _
    rw [hlinks, List.find?_cons]
    by_cases hname : link.childEntity = r.entity
    · simp [hname]
    · simp [hname]
  simp only [Mapping.joined, Mapping.lookup?, Scalar.isNull, Option.map_some, hfind]
  by_cases hname : link.childEntity = r.entity
  · simp [hname]
  · simp [hname, Ne.symm hname]

theorem linkedAs_of_linksFrom (catalog : Catalog) (hlinks : s.linksFrom f.wire = [link])
    (heager : link.eager = f.eager) : LinkedAs catalog s f link where
  joins _ _ hq := filter_joins hlinks heager hq
  aliases _ _ _ _ hfield hlocate := alias_of_locate hlinks hfield hlocate
  flattened _ _ _ _ hjoined := record_of_joined hlinks hjoined
  checked record place r := joined_reference_iff hlinks record place r

theorem goesBy_entity (hl : catalog.schema? linked = some l) :
    GoesBy catalog linked l l.entity where
  searches _ _ hq := (Query.joins_of_toPageQuery hq).1
  records _ _ _ hrecord := (Mapping.sent_of_toRecord hl hrecord).entity

/--
**A link and its type have one name exactly when that name is declared without blanks around it.**

A field linked to a mapped type has one link, and everything that is done for the link goes by the
type's first name as it is declared.  Searches for the type itself and records of it go by that name
trimmed.
-/
theorem link_name_eq_iff (hs : ofDeclarations catalog.names names declarations = s)
    (hf : f ∈ s.fields) (hbinding : f.binding = .link slot linked)
    (hl : catalog.schema? linked = some l) :
    ∃ name link, (catalog.names linked).head? = some name ∧
      s.linksFrom f.wire = [link] ∧ f.targets = [link.childEntity] ∧
      LinkedAs catalog s f link ∧ GoesBy catalog linked l l.entity ∧
      (f.targets = [l.entity] ∧ link.childField = l.identityField ↔ Text.trim name = name) := by
  obtain ⟨name, others, hnames, hentity⟩ := Catalog.entity_of_schema? hl
  have htargets := targets_of_names hs hf hbinding hnames
  have hlinks : s.linksFrom f.wire
      = [⟨f.member, s.entity, f.wire, name, identityAttribute name, f.eager⟩] := by
    have hb : s.Built := hs ▸ built_ofDeclarations ..
    rw [hb.linksFrom_wire hf, linksOf, if_pos (isLink_of_binding hbinding), htargets]
    rfl
  refine ⟨name, _, by rw [hnames]; rfl, hlinks, htargets, linkedAs_of_linksFrom catalog hlinks rfl,
    goesBy_entity hl, ?_⟩
  rw [htargets, hentity]
  constructor
  · rintro ⟨hname, -⟩
    exact (List.singleton_inj.mp hname).symm
  · intro htrim
    refine ⟨by rw [htrim], ?_⟩
    show identityAttribute name = identityAttribute l.entity
    rw [hentity, htrim]

/-! ### A deal with a lead and a partner -/

/-- A catalog of deals, whose partners are declared under a name with a blank behind it. -/
def deals : Catalog where
  describe
    | "Deal" =>
        { names := ["deal"]
          declarations :=
            [.link "lead" "Lead" "lead" "leadid" [],
              .link "partner" "Partner" "partner" "partnerid" []] }
    | "Lead" => { names := ["lead", "leads"] }
    | "Partner" => { names := ["partner "] }
    | _ => {}

/-- The schema of deals. -/
def dealSchema : Schema :=
  .ofDeclarations deals.names (deals.names "Deal") (deals.describe "Deal").declarations

/-- The schema of leads. -/
def leadSchema : Schema := .ofDeclarations deals.names ["lead", "leads"] []

/-- The schema of partners. -/
def partnerSchema : Schema := .ofDeclarations deals.names ["partner "] []

/-- The field of a deal's lead. -/
def leadField : Field :=
  { member := "lead", wire := "leadid", binding := .link "lead" "Lead", targets := ["lead"] }

/-- The field of a deal's partner. -/
def partnerField : Field :=
  { member := "partner", wire := "partnerid", binding := .link "partner" "Partner",
    targets := ["partner "] }

theorem link_name_eq_iff_lead :
    deals.schema? "Deal" = some dealSchema ∧ leadField ∈ dealSchema.fields ∧
      leadField.binding = .link "lead" "Lead" ∧ deals.schema? "Lead" = some leadSchema ∧
      ∃ link, dealSchema.linksFrom "leadid" = [link] ∧ leadField.targets = [link.childEntity] ∧
        LinkedAs deals dealSchema leadField link ∧ GoesBy deals "Lead" leadSchema "lead" ∧
        leadField.targets = [leadSchema.entity] ∧ link.childField = leadSchema.identityField := by
  have hf : leadField ∈ dealSchema.fields := by decide +kernel
  have hl : deals.schema? "Lead" = some leadSchema := rfl
  obtain ⟨name, link, hname, hlinks, htargets, hlinked, hgoes, hiff⟩ :=
    link_name_eq_iff (s := dealSchema) rfl hf rfl hl
  cases hname
  obtain ⟨htarget, hchild⟩ := hiff.mpr rfl
  exact ⟨rfl, hf, rfl, hl, link, hlinks, htargets, hlinked, hgoes, htarget, hchild⟩

/-- A deal's partner is joined, found and checked as something that no partner goes by. -/
theorem partner_not_shared :
    deals.schema? "Deal" = some dealSchema ∧ partnerField ∈ dealSchema.fields ∧
      partnerField.binding = .link "partner" "Partner" ∧
      deals.schema? "Partner" = some partnerSchema ∧
      ¬(partnerField.targets = [partnerSchema.entity] ∧
        ∀ link ∈ dealSchema.linksFrom partnerField.wire,
          link.childField = partnerSchema.identityField) := by
  refine ⟨rfl, by decide +kernel, rfl, rfl, ?_⟩
  rintro ⟨htargets, -⟩
  have hne : partnerField.targets ≠ [partnerSchema.entity] := by decide +kernel
  exact hne htargets

end Schema

end TypedRecords
