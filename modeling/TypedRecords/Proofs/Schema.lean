/-
What a built schema guarantees.

A schema comes from replaying declarations, and two things are true of every one that does.  No
attribute is mapped twice: a declaration whose attribute is already there takes its field's place,
and a modifier never touches an attribute's name, so each step of the replay keeps the attributes
distinct.  And the links are those of the finished fields, so the links of one lookup attribute are
the links of one field.  Reading, writing and joining all look fields up by attribute, and rest on
these two facts alone.
-/
import TypedRecords.Catalog
import Mathlib.Data.List.Basic
import Mathlib.Data.List.Nodup

namespace TypedRecords

namespace Schema

/-- What replaying declarations guarantees of a schema. -/
structure Built (s : Schema) : Prop where
  /-- No attribute is mapped twice. -/
  wires : (s.fields.map Field.wire).Nodup
  /-- The links are those of the fields, in field order. -/
  links : s.links = s.fields.flatMap (linksOf s.entity)

/-! ### Each declaration keeps the attributes distinct -/

namespace Draft

theorem map_modify {β : Type} {view : Field → β} {change : Field → Field} {change' : β → β}
    (h : ∀ f, view (change f) = change' (view f)) (fields : List Field) (i : Nat) :
    (fields.modify i change).map view = (fields.map view).modify i change' := by
  induction fields generalizing i with
  | nil => simp
  | cons f rest ih =>
      cases i with
      | zero => simp [h]
      | succ i => simp [ih]

/-- A change of a field that a view does not see. -/
theorem map_modify_of_keeps {β : Type} {view : Field → β} {change : Field → Field}
    (h : ∀ f, view (change f) = view f) (fields : List Field) (i : Nat) :
    (fields.modify i change).map view = fields.map view := by
  have hid : ∀ f, view (change f) = id (view f) := h
  rw [map_modify hid, List.modify_id]

theorem map_wire_set {fields : List Field} {f : Field} {i : Nat}
    (h : fields.findIdx? (·.wire = f.wire) = some i) :
    (fields.set i f).map Field.wire = fields.map Field.wire := by
  obtain ⟨hi, hwire, -⟩ := List.findIdx?_eq_some_iff_getElem.mp h
  have hi' : i < (fields.map Field.wire).length := by simpa using hi
  have hget : (fields.map Field.wire)[i] = f.wire := by simpa using hwire
  rw [List.map_set, ← hget, List.set_getElem_self]

/-- A table of fields with one more: in the place of the field of its attribute, or at the end. -/
def put (fields : List Field) (f : Field) : List Field :=
  match fields.findIdx? (·.wire = f.wire) with
  | some i => fields.set i f
  | none => fields ++ [f]

theorem fields_push (d : Draft) (f : Field) : (d.push f).schema.fields = put d.schema.fields f := by
  unfold push put
  cases d.schema.fields.findIdx? (·.wire = f.wire) with
  | some i => rfl
  | none => rfl

/-- A field that comes in changes the fields only. -/
theorem schema_push (d : Draft) (f : Field) :
    (d.push f).schema = { d.schema with fields := (d.push f).schema.fields } := by
  unfold push
  cases d.schema.fields.findIdx? (·.wire = f.wire) with
  | some i => rfl
  | none => rfl

/-- A modifier changes the fields only. -/
theorem schema_modifyLast (d : Draft) (change : Field → Field) :
    (d.modifyLast change).schema
      = { d.schema with fields := (d.modifyLast change).schema.fields } := by
  unfold modifyLast
  cases d.last with
  | some i => rfl
  | none => rfl

theorem wire_notMem_of_findIdx? {fields : List Field} {f : Field}
    (h : fields.findIdx? (·.wire = f.wire) = none) : f.wire ∉ fields.map Field.wire := by
  intro hmem
  obtain ⟨g, hg, hgf⟩ := List.mem_map.mp hmem
  have hne := List.findIdx?_eq_none_iff.mp h g hg
  simp [hgf] at hne

/-- A new attribute comes last; the others keep their places. -/
theorem map_wire_put (fields : List Field) (f : Field) :
    (put fields f).map Field.wire
      = if f.wire ∈ fields.map Field.wire then fields.map Field.wire
        else fields.map Field.wire ++ [f.wire] := by
  unfold put
  cases hfind : fields.findIdx? (·.wire = f.wire) with
  | some i =>
      obtain ⟨hi, hwire, -⟩ := List.findIdx?_eq_some_iff_getElem.mp hfind
      have hwire : fields[i].wire = f.wire := by simpa using hwire
      rw [if_pos (List.mem_map.mpr ⟨_, List.getElem_mem hi, hwire⟩)]
      exact map_wire_set hfind
  | none =>
      rw [if_neg (wire_notMem_of_findIdx? hfind), List.map_append]
      rfl

theorem wires_put {fields : List Field} (h : (fields.map Field.wire).Nodup) (f : Field) :
    ((put fields f).map Field.wire).Nodup := by
  rw [map_wire_put]
  by_cases hmem : f.wire ∈ fields.map Field.wire
  · rw [if_pos hmem]
    exact h
  · rw [if_neg hmem, ← List.concat_eq_append]
    exact h.concat hmem

theorem wires_push {d : Draft} (h : (d.schema.fields.map Field.wire).Nodup) (f : Field) :
    ((d.push f).schema.fields.map Field.wire).Nodup := by
  rw [fields_push]
  exact wires_put h f

theorem wires_modifyLast {d : Draft} (h : (d.schema.fields.map Field.wire).Nodup)
    {change : Field → Field} (hchange : ∀ f, (change f).wire = f.wire) :
    ((d.modifyLast change).schema.fields.map Field.wire).Nodup := by
  unfold modifyLast
  cases d.last with
  | none => exact h
  | some i =>
      show ((d.schema.fields.modify i change).map Field.wire).Nodup
      rw [map_modify_of_keeps hchange]
      exact h

theorem wires_declare {namesOf : TypeName → List String} {d : Draft}
    (h : (d.schema.fields.map Field.wire).Nodup) (declaration : Declaration) :
    ((d.declare namesOf declaration).schema.fields.map Field.wire).Nodup := by
  cases declaration with
  | scalar slot member wire => exact wires_push h _
  | link slot linked member wire targets => exact wires_push h _
  | choice => exact wires_modifyLast h fun _ => rfl
  | eager => exact wires_modifyLast h fun _ => rfl
  | readOnly => exact wires_modifyLast h fun _ => rfl
  | _ => exact h

theorem wires_replay {namesOf : TypeName → List String} :
    ∀ (declarations : List Declaration) {d : Draft}, (d.schema.fields.map Field.wire).Nodup →
      ((declarations.foldl (declare namesOf) d).schema.fields.map Field.wire).Nodup := by
  intro declarations
  induction declarations with
  | nil => intro d h; exact h
  | cons declaration rest ih => intro d h; exact ih (wires_declare h declaration)

end Draft

/-- Replaying any declarations builds a schema. -/
theorem built_ofDeclarations (namesOf : TypeName → List String) (names : List String)
    (declarations : List Declaration) : (ofDeclarations namesOf names declarations).Built :=
  ⟨Draft.wires_replay declarations (by simp), rfl⟩

end Schema

/-- **The schema of a mapped type is built.** -/
theorem Catalog.built_of_schema? {catalog : Catalog} {type : TypeName} {s : Schema}
    (h : catalog.schema? type = some s) : s.Built := by
  unfold Catalog.schema? at h
  split at h
  · cases h
    exact Schema.built_ofDeclarations ..
  · cases h

/-- A type with a schema is not the dynamic one. -/
theorem Catalog.ne_dynamicType_of_schema? {catalog : Catalog} {type : TypeName} {s : Schema}
    (h : catalog.schema? type = some s) : type ≠ dynamicType := by
  rintro rfl
  rw [catalog.schema?_dynamicType] at h
  cases h

namespace Schema

variable {s : Schema} {f g : Field}

/-! ### Fields and links by attribute -/

theorem isLink_of_binding {slot : String} {linked : TypeName}
    (hbinding : f.binding = .link slot linked) : f.isLink = true := by
  unfold Field.isLink Field.linked?
  rw [hbinding]
  rfl

theorem exists_link_of_isLink (h : f.isLink = true) :
    ∃ slot linked, f.binding = .link slot linked := by
  unfold Field.isLink Field.linked? at h
  cases hbinding : f.binding with
  | scalar slot =>
      rw [hbinding] at h
      cases h
  | link slot linked => exact ⟨slot, linked, rfl⟩

theorem exists_slot_of_not_isLink (h : f.isLink = false) : ∃ slot, f.binding = .scalar slot := by
  cases hbinding : f.binding with
  | scalar slot => exact ⟨slot, rfl⟩
  | link slot linked =>
      rw [isLink_of_binding hbinding] at h
      cases h

/-- An attribute has one field. -/
theorem Built.field_unique (hb : s.Built) (hf : f ∈ s.fields) (hg : g ∈ s.fields)
    (h : f.wire = g.wire) : f = g :=
  List.inj_on_of_nodup_map hb.wires hf hg h

theorem Built.wire_ne_of_split (hb : s.Built) {before after : List Field}
    (hsplit : s.fields = before ++ f :: after) :
    (∀ g ∈ before, g.wire ≠ f.wire) ∧ ∀ g ∈ after, g.wire ≠ f.wire := by
  have hwires := hb.wires
  rw [hsplit, List.map_append, List.map_cons, List.nodup_append] at hwires
  obtain ⟨-, hafter, hdisjoint⟩ := hwires
  constructor
  · intro g hg
    exact hdisjoint _ (List.mem_map_of_mem hg) _ (by simp)
  · intro g hg hgf
    exact (List.nodup_cons.mp hafter).1 (hgf ▸ List.mem_map_of_mem hg)

theorem sourceField_of_mem_linksOf {entity : String} {link : Link}
    (h : link ∈ linksOf entity f) : link.sourceField = f.wire := by
  unfold linksOf at h
  split at h
  · obtain ⟨target, -, rfl⟩ := List.mem_map.mp h
    rfl
  · cases h

theorem filter_linksOf_self (entity : String) :
    (linksOf entity f).filter (·.sourceField = f.wire) = linksOf entity f := by
  rw [List.filter_eq_self]
  intro link hlink
  simpa using sourceField_of_mem_linksOf hlink

theorem filter_linksOf_others {entity : String} {others : List Field}
    (h : ∀ g ∈ others, g.wire ≠ f.wire) :
    (others.flatMap (linksOf entity)).filter (·.sourceField = f.wire) = [] := by
  rw [List.filter_eq_nil_iff]
  intro link hlink hsource
  obtain ⟨g, hg, hlink⟩ := List.mem_flatMap.mp hlink
  have hwire := sourceField_of_mem_linksOf hlink
  exact h g hg (hwire ▸ by simpa using hsource)

/-- The links of a field's attribute are the field's own. -/
theorem Built.linksFrom_wire (hb : s.Built) (hf : f ∈ s.fields) :
    s.linksFrom f.wire = linksOf s.entity f := by
  obtain ⟨before, after, hsplit⟩ := List.append_of_mem hf
  obtain ⟨hbefore, hafter⟩ := hb.wire_ne_of_split hsplit
  unfold linksFrom
  rw [hb.links, hsplit, List.flatMap_append, List.flatMap_cons, List.filter_append,
    List.filter_append, filter_linksOf_others hbefore, filter_linksOf_others hafter,
    filter_linksOf_self, List.nil_append, List.append_nil]

/-- The link of a field to one of its targets. -/
def linkTo (entity : String) (f : Field) (target : String) : Link :=
  ⟨f.member, entity, f.wire, target, identityAttribute target, f.eager⟩

/-- The links of a linked field's attribute lead to the field's targets. -/
theorem Built.linksFrom_of_link (hb : s.Built) (hf : f ∈ s.fields) (hlink : f.isLink = true) :
    s.linksFrom f.wire = f.targets.map (linkTo s.entity f) := by
  rw [hb.linksFrom_wire hf, linksOf, if_pos hlink]
  rfl

/-- A link that is found is one of the attribute's. -/
theorem mem_linksFrom_of_findLink? {wire : String} {target : Option String} {link : Link}
    (h : s.findLink? wire target = some link) : link ∈ s.linksFrom wire := by
  cases target with
  | none => exact List.mem_of_mem_head? h
  | some target => exact List.mem_of_find?_eq_some h

/-- A link that is found leads to a target of the field. -/
theorem Built.childEntity_mem_targets (hb : s.Built) (hf : f ∈ s.fields) (hlink : f.isLink = true)
    {target : Option String} {link : Link} (h : s.findLink? f.wire target = some link) :
    link.childEntity ∈ f.targets := by
  have hmem := mem_linksFrom_of_findLink? h
  rw [hb.linksFrom_of_link hf hlink] at hmem
  obtain ⟨name, hname, rfl⟩ := List.mem_map.mp hmem
  exact hname

/-- The link that is found for no target leads to the field's first one, if it has any. -/
theorem Built.findLink?_none (hb : s.Built) (hf : f ∈ s.fields) (hlink : f.isLink = true) :
    s.findLink? f.wire none = f.targets.head?.map (linkTo s.entity f) := by
  show (s.linksFrom f.wire).head? = _
  rw [hb.linksFrom_of_link hf hlink, List.head?_map]

/-- The first link of a linked field's attribute leads to its first target, whether that target is
asked for or none is. -/
theorem Built.findLink?_first (hb : s.Built) (hf : f ∈ s.fields) (hlink : f.isLink = true)
    {target : String} {rest : List String} (htargets : f.targets = target :: rest) :
    ∃ link, link.childEntity = target ∧ s.findLink? f.wire none = some link ∧
      s.findLink? f.wire (some target) = some link := by
  refine ⟨linkTo s.entity f target, rfl, ?_, ?_⟩
  · rw [hb.findLink?_none hf hlink, htargets]
    rfl
  · show (s.linksFrom f.wire).find? (·.childEntity = target) = _
    rw [hb.linksFrom_of_link hf hlink, htargets, List.map_cons]
    simp [linkTo]

/-! ### Fields by member -/

theorem member_ne_of_split (hm : (s.fields.map Field.member).Nodup) {before after : List Field}
    (hsplit : s.fields = before ++ f :: after) : ∀ g ∈ before, g.member ≠ f.member := by
  rw [hsplit, List.map_append, List.map_cons, List.nodup_append] at hm
  intro g hg
  exact hm.2.2 _ (List.mem_map_of_mem hg) _ (by simp)

theorem field?_of_split (hm : (s.fields.map Field.member).Nodup) {before after : List Field}
    (hsplit : s.fields = before ++ f :: after) : s.field? f.member = some f := by
  have hbefore : before.find? (·.member = f.member) = none := by
    rw [List.find?_eq_none]
    intro g hg
    simpa using member_ne_of_split hm hsplit g hg
  unfold field?
  rw [hsplit, List.find?_append, hbefore]
  simp

theorem field?_of_mem (hm : (s.fields.map Field.member).Nodup) (hf : f ∈ s.fields) :
    s.field? f.member = some f := by
  obtain ⟨before, after, hsplit⟩ := List.append_of_mem hf
  exact field?_of_split hm hsplit

/-- A field that is not joined has no place among those that are. -/
theorem joinPlace?_of_not_joined (hm : (s.fields.map Field.member).Nodup) (hf : f ∈ s.fields)
    (hjoined : f.isJoined = false) : s.joinPlace? f.member = none := by
  unfold joinPlace?
  rw [Option.map_eq_none_iff, List.findIdx?_eq_none_iff]
  intro g hg
  obtain ⟨hg, hgjoined⟩ := List.mem_filter.mp hg
  have hne : g.member ≠ f.member := by
    intro hmember
    rw [List.inj_on_of_nodup_map hm hg hf hmember, hjoined] at hgjoined
    cases hgjoined
  simpa using hne

/-- A joined field's place counts the joined fields declared before it. -/
theorem joinPlace?_of_split (hm : (s.fields.map Field.member).Nodup) {before after : List Field}
    (hsplit : s.fields = before ++ f :: after) (hjoined : f.isJoined = true) :
    s.joinPlace? f.member = some ((before.filter Field.isJoined).length + 1) := by
  have hbefore : (before.filter Field.isJoined).findIdx? (·.member = f.member) = none := by
    rw [List.findIdx?_eq_none_iff]
    intro g hg
    simpa using member_ne_of_split hm hsplit g (List.mem_filter.mp hg).1
  unfold joinPlace?
  rw [hsplit, List.filter_append, List.filter_cons_of_pos hjoined, List.findIdx?_append, hbefore]
  simp [List.findIdx?_cons]

end Schema

end TypedRecords
