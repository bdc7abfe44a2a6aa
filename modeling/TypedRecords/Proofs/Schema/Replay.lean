/-
What replaying declarations leaves of them.

Replaying keeps a cursor to the field declared last, because its modifiers come after it.  Read the
other way round, a field declaration comes with the modifiers that follow it up to the next one, and
the cursor is not needed: `declaredFields` lists the fields with their modifiers, and replaying puts
them into the table one after the other.  A modifier and the field it stands behind are one entry of
that list, so a field that takes another's place takes its modifiers away with it, and modifiers
before the first field are in no entry at all.

Putting a field into the table keeps the place of its attribute and replaces what stood there.  So
the table lists the attributes as they were first declared, and at each the last entry of its
attribute.  A table may also be kept as two lists, one of descriptors and one of bindings; each step
then works on one place of both.
-/
import TypedRecords.Proofs.Schema
import TypedRecords.Proofs.Text.Blank

namespace TypedRecords

variable {namesOf : TypeName → List String}

/-! ### One declaration -/

/-- The field that a declaration maps, without modifiers; none for a declaration that maps no
field. -/
def Declaration.field? (namesOf : TypeName → List String) : Declaration → Option Field
  | .scalar slot member wire =>
    some { member, wire := Text.trim wire, binding := .scalar slot, isChoice := slot.type.isCoded }
  | .link slot linked member wire targets =>
    some { member, wire := Text.trim wire, binding := .link slot linked,
           targets := match namesOf linked with
             | name :: _ => [name]
             | [] => targets.map Text.trim }
  | _ => none

/-- The declarations before the next one that maps a field. -/
def Declaration.leading (namesOf : TypeName → List String) (declarations : List Declaration) :
    List Declaration :=
  declarations.takeWhile fun d => (d.field? namesOf).isNone

/-- A field with the modifiers among some declarations. -/
def Field.modified (f : Field) (modifiers : List Declaration) : Field :=
  { f with
    isChoice := f.isChoice || modifiers.contains .choice
    eager := f.eager || modifiers.contains .eager
    readOnly := f.readOnly || modifiers.contains .readOnly }

theorem Field.modified_nil (f : Field) : f.modified [] = f := by
  simp [Field.modified]

theorem Field.modified_cons (f : Field) (d : Declaration) (modifiers : List Declaration) :
    f.modified (d :: modifiers) = (f.modified [d]).modified modifiers := by
  simp [Field.modified, Bool.or_assoc]

/-- The fields that declarations map, in order, each with the modifiers behind it. -/
def declaredFields (namesOf : TypeName → List String) : List Declaration → List Field
  | [] => []
  | d :: rest =>
    match d.field? namesOf with
    | some f => f.modified (Declaration.leading namesOf rest) :: declaredFields namesOf rest
    | none => declaredFields namesOf rest

namespace Schema.Draft

/-! ### The field declared last -/

/-- Fields with the one at the cursor changed, if there is one. -/
def touch (last : Option Nat) (fields : List Field) (change : Field → Field) : List Field :=
  match last with
  | some i => fields.modify i change
  | none => fields

theorem touch_of_eq {change : Field → Field} (h : ∀ f, change f = f) (last : Option Nat)
    (fields : List Field) : touch last fields change = fields := by
  have hid : change = id := funext h
  cases last with
  | none => rfl
  | some i => exact hid ▸ List.modify_id i fields

theorem touch_touch (last : Option Nat) (fields : List Field) (first second : Field → Field) :
    touch last (touch last fields first) second = touch last fields (second ∘ first) := by
  cases last with
  | none => rfl
  | some i => exact List.modify_modify_eq first second i fields

variable {d : Draft} {declaration : Declaration} {f : Field}

theorem modifyLast_eq (d : Draft) (change : Field → Field) :
    (d.modifyLast change).schema.fields = touch d.last d.schema.fields change ∧
      (d.modifyLast change).last = d.last := by
  obtain ⟨schema, last⟩ := d
  cases last with
  | none => exact ⟨rfl, rfl⟩
  | some i => exact ⟨rfl, rfl⟩

theorem modify_set (fields : List Field) (i : Nat) (f : Field) (change : Field → Field) :
    (fields.set i f).modify i change = fields.set i (change f) := by
  induction fields generalizing i with
  | nil => simp
  | cons g rest ih =>
      cases i with
      | zero => rfl
      | succ i => simpa using ih i

theorem modify_concat (fields : List Field) (f : Field) (change : Field → Field) :
    (fields ++ [f]).modify fields.length change = fields ++ [change f] := by
  induction fields with
  | nil => rfl
  | cons g rest ih => simpa using ih

/-- The cursor stands at a field that was just declared, so a change of it is a change of the field
before it was put into the table. -/
theorem touch_push (d : Draft) (change : Field → Field) (h : ∀ f, (change f).wire = f.wire) :
    touch (d.push f).last (d.push f).schema.fields change = put d.schema.fields (change f) := by
  unfold push put
  rw [h]
  cases hfind : d.schema.fields.findIdx? (·.wire = f.wire) with
  | some i => exact modify_set d.schema.fields i f change
  | none => exact modify_concat d.schema.fields f change

/-! ### One declaration after the other -/

theorem declare_of_field (h : declaration.field? namesOf = some f) :
    d.declare namesOf declaration = d.push f := by
  cases declaration with
  | scalar slot member wire =>
      cases h
      rfl
  | link slot linked member wire targets =>
      cases h
      rfl
  | _ => cases h

/-- A declaration that maps no field does to the fields what it does as a modifier of the last. -/
theorem declare_of_no_field (h : declaration.field? namesOf = none) :
    (d.declare namesOf declaration).schema.fields
        = touch d.last d.schema.fields (·.modified [declaration]) ∧
      (d.declare namesOf declaration).last = d.last := by
  have hmodifier : ∀ change : Field → Field, (∀ f, change f = f.modified [declaration]) →
      (d.modifyLast change).schema.fields
          = touch d.last d.schema.fields (·.modified [declaration]) ∧
        (d.modifyLast change).last = d.last := by
    intro change hchange
    rw [← show change = (·.modified [declaration]) from funext hchange]
    exact modifyLast_eq d change
  cases declaration with
  | scalar slot member wire => cases h
  | link slot linked member wire targets => cases h
  | choice => exact hmodifier _ fun f => by simp [Field.modified]
  | eager => exact hmodifier _ fun f => by simp [Field.modified]
  | readOnly => exact hmodifier _ fun f => by simp [Field.modified]
  | _ => exact ⟨(touch_of_eq (fun f => by simp [Field.modified]) _ _).symm, rfl⟩

/-- **Replaying puts the declared fields into the table**, after the modifiers in front have changed
the field that was declared last before. -/
theorem fields_replay (declarations : List Declaration) : ∀ d : Draft,
    (declarations.foldl (declare namesOf) d).schema.fields
      = (declaredFields namesOf declarations).foldl put
          (touch d.last d.schema.fields
            (·.modified (Declaration.leading namesOf declarations))) := by
  induction declarations with
  | nil => intro d; exact (touch_of_eq Field.modified_nil _ _).symm
  | cons declaration rest ih =>
      intro d
      rw [List.foldl_cons, ih]
      cases h : declaration.field? namesOf with
      | some f =>
          have hleading : Declaration.leading namesOf (declaration :: rest) = [] := by
            simp [Declaration.leading, h]
          rw [declare_of_field h, hleading, touch_of_eq Field.modified_nil,
            touch_push d (·.modified (Declaration.leading namesOf rest)) fun _ => rfl]
          simp only [declaredFields, h, List.foldl_cons]
      | none =>
          have hleading : Declaration.leading namesOf (declaration :: rest)
              = declaration :: Declaration.leading namesOf rest := by
            simp [Declaration.leading, h]
          obtain ⟨hfields, hlast⟩ := declare_of_no_field (d := d) h
          have hmodified : (Field.modified · (Declaration.leading namesOf rest))
              ∘ (Field.modified · [declaration])
              = (Field.modified · (declaration :: Declaration.leading namesOf rest)) :=
            funext fun f => (Field.modified_cons f declaration _).symm
          rw [hfields, hlast, touch_touch, hmodified, hleading]
          simp only [declaredFields, h]

/-! ### The table -/

theorem mem_put {fields : List Field} {g : Field} (h : (fields.map Field.wire).Nodup)
    (hg : g ∈ put fields f) : g = f ∨ g ∈ fields ∧ g.wire ≠ f.wire := by
  have hf : f ∈ put fields f := by
    unfold put
    cases hfind : fields.findIdx? (·.wire = f.wire) with
    | some i =>
        obtain ⟨hi, -, -⟩ := List.findIdx?_eq_some_iff_getElem.mp hfind
        exact List.mem_set hi f
    | none => exact List.mem_append_right _ (by simp)
  by_cases hwire : g.wire = f.wire
  · exact .inl (List.inj_on_of_nodup_map (wires_put h f) hg hf hwire)
  · have hold : g ∈ fields ∨ g = f := by
      unfold put at hg
      cases hfind : fields.findIdx? (·.wire = f.wire) with
      | some i =>
          rw [hfind] at hg
          exact List.mem_or_eq_of_mem_set hg
      | none =>
          rw [hfind] at hg
          exact (List.mem_append.mp hg).imp_right List.mem_singleton.mp
    rcases hold with hmem | rfl
    · exact .inr ⟨hmem, hwire⟩
    · exact absurd rfl hwire

theorem wires_foldl_put (fs : List Field) : ((fs.foldl put []).map Field.wire).Nodup := by
  induction fs using List.reverseRecOn with
  | nil => exact List.nodup_nil
  | append_singleton fs f ih =>
      rw [List.foldl_append]
      exact wires_put ih f

theorem eraseDups_concat (names : List String) (name : String) :
    (names ++ [name]).eraseDups
      = if name ∈ names then names.eraseDups else names.eraseDups ++ [name] := by
  rw [List.eraseDups_append]
  by_cases h : name ∈ names
  · simp [List.removeAll, h]
  · simp [List.removeAll, h, List.eraseDups_cons]

/-- The table lists the attributes in the order in which they first came. -/
theorem map_wire_foldl_put (fs : List Field) :
    (fs.foldl put []).map Field.wire = (fs.map Field.wire).eraseDups := by
  induction fs using List.reverseRecOn with
  | nil => rfl
  | append_singleton fs f ih =>
      have hmem : f.wire ∈ (fs.foldl put []).map Field.wire ↔ f.wire ∈ fs.map Field.wire := by
        rw [ih, List.mem_eraseDups]
      rw [List.foldl_append, List.map_append]
      show (put _ f).map Field.wire = (fs.map Field.wire ++ [f.wire]).eraseDups
      rw [map_wire_put, eraseDups_concat, ← ih]
      simp only [hmem]

/-- At each attribute stands the field that came last. -/
theorem last_of_mem_foldl_put (fs : List Field) : ∀ f ∈ fs.foldl put [],
    ∃ before after, fs = before ++ f :: after ∧ ∀ g ∈ after, g.wire ≠ f.wire := by
  induction fs using List.reverseRecOn with
  | nil => intro f hf; cases hf
  | append_singleton fs new ih =>
      intro f hf
      rw [List.foldl_append] at hf
      rcases mem_put (wires_foldl_put fs) hf with rfl | ⟨hold, hne⟩
      · exact ⟨fs, [], rfl, by simp⟩
      · obtain ⟨before, after, rfl, hafter⟩ := ih f hold
        refine ⟨before, after ++ [new], by simp, ?_⟩
        intro g hg
        rcases List.mem_append.mp hg with hg | hg
        · exact hafter g hg
        · rw [List.mem_singleton.mp hg]
          exact hne.symm

end Schema.Draft

/-! ### The declared fields -/

theorem map_wire_declaredFields (declarations : List Declaration) :
    (declaredFields namesOf declarations).map Field.wire
      = (declarations.filterMap (·.field? namesOf)).map Field.wire := by
  induction declarations with
  | nil => rfl
  | cons declaration rest ih =>
      cases h : declaration.field? namesOf with
      | some f =>
          rw [List.filterMap_cons_some h, List.map_cons, ← ih]
          simp only [declaredFields, h]
          rfl
      | none =>
          rw [List.filterMap_cons_none h, ← ih]
          simp only [declaredFields, h]

/-- A declared field comes from one declaration and the modifiers behind it. -/
theorem declaredFields_split {declarations : List Declaration} {before after : List Field}
    {f : Field} (h : declaredFields namesOf declarations = before ++ f :: after) :
    ∃ earlier declaration later declared,
      declarations = earlier ++ declaration :: later ∧
      declaration.field? namesOf = some declared ∧
      f = declared.modified (Declaration.leading namesOf later) ∧
      declaredFields namesOf later = after := by
  induction declarations generalizing before with
  | nil =>
      rw [declaredFields] at h
      simp at h
  | cons declaration rest ih =>
      cases hfield : declaration.field? namesOf with
      | none =>
          simp only [declaredFields, hfield] at h
          obtain ⟨earlier, found, later, declared, rfl, hdeclared⟩ := ih h
          exact ⟨declaration :: earlier, found, later, declared, rfl, hdeclared⟩
      | some declared =>
          simp only [declaredFields, hfield] at h
          rcases List.cons_eq_append_iff.mp h with ⟨rfl, hcons⟩ | ⟨others, rfl, hrest⟩
          · cases hcons
            exact ⟨[], declaration, rest, declared, rfl, hfield, rfl, rfl⟩
          · obtain ⟨earlier, found, later, declared, rfl, hdeclared⟩ := ih hrest
            exact ⟨declaration :: earlier, found, later, declared, rfl, hdeclared⟩

theorem trim_wire_of_field? {declaration : Declaration} {f : Field}
    (h : declaration.field? namesOf = some f) : Text.trim f.wire = f.wire := by
  cases declaration with
  | scalar slot member wire =>
      cases h
      exact Text.trim_trim wire
  | link slot linked member wire targets =>
      cases h
      exact Text.trim_trim wire
  | _ => cases h

/-! ### Descriptors and bindings in two lists

A table can be kept in two lists, the descriptors of its fields and the bindings of their members,
if every step that puts a field into one puts it into the same place of the other.
-/

/-- What is said of a field besides where its member is found in an entity. -/
structure Field.Descriptor where
  member : String
  wire : String
  linked? : Option TypeName
  isChoice : Bool
  eager : Bool
  readOnly : Bool
  targets : List String

def Field.descriptor (f : Field) : Field.Descriptor :=
  ⟨f.member, f.wire, f.linked?, f.isChoice, f.eager, f.readOnly, f.targets⟩

/-- The two lists, with the place of the field declared last. -/
structure Schema.Columns where
  descriptors : List Field.Descriptor := []
  bindings : List Binding := []
  last : Option Nat := none

namespace Schema.Columns

/-- Puts a field into both lists, in the place of the one with its attribute or at the end. -/
def push (t : Columns) (f : Field) : Columns :=
  match t.descriptors.findIdx? (·.wire = f.wire) with
  | some i => ⟨t.descriptors.set i f.descriptor, t.bindings.set i f.binding, some i⟩
  | none =>
    ⟨t.descriptors ++ [f.descriptor], t.bindings ++ [f.binding], some t.descriptors.length⟩

/-- Changes the descriptor declared last, if any. -/
def modifyLast (t : Columns) (change : Field.Descriptor → Field.Descriptor) : Columns :=
  match t.last with
  | some i => { t with descriptors := t.descriptors.modify i change }
  | none => t

/-- Replays one declaration in both lists. -/
def declare (namesOf : TypeName → List String) (t : Columns) (declaration : Declaration) :
    Columns :=
  match declaration.field? namesOf, declaration with
  | some f, _ => t.push f
  | none, .choice => t.modifyLast ({ · with isChoice := true })
  | none, .eager => t.modifyLast ({ · with eager := true })
  | none, .readOnly => t.modifyLast ({ · with readOnly := true })
  | none, _ => t

/-- The two lists of a schema in the making. -/
def ofDraft (d : Draft) : Columns :=
  ⟨d.schema.fields.map Field.descriptor, d.schema.fields.map Field.binding, d.last⟩

theorem push_ofDraft (d : Draft) (f : Field) : (ofDraft d).push f = ofDraft (d.push f) := by
  have hfind : (ofDraft d).descriptors.findIdx? (·.wire = f.wire)
      = d.schema.fields.findIdx? (·.wire = f.wire) := by
    show (d.schema.fields.map Field.descriptor).findIdx? _ = _
    rw [List.findIdx?_map]
    rfl
  unfold push Draft.push
  rw [hfind]
  cases d.schema.fields.findIdx? (·.wire = f.wire) with
  | some i => simp [ofDraft, List.map_set]
  | none => simp [ofDraft]

theorem modifyLast_ofDraft (d : Draft) {change : Field → Field}
    {change' : Field.Descriptor → Field.Descriptor}
    (hdescriptor : ∀ f, (change f).descriptor = change' f.descriptor)
    (hbinding : ∀ f, (change f).binding = f.binding) :
    (ofDraft d).modifyLast change' = ofDraft (d.modifyLast change) := by
  obtain ⟨schema, last⟩ := d
  cases last with
  | none => rfl
  | some i =>
      show Columns.mk ((schema.fields.map Field.descriptor).modify i change')
          (schema.fields.map Field.binding) (some i)
        = ⟨(schema.fields.modify i change).map Field.descriptor,
            (schema.fields.modify i change).map Field.binding, some i⟩
      rw [Draft.map_modify hdescriptor, Draft.map_modify_of_keeps hbinding]

theorem replay_ofDraft (declarations : List Declaration) : ∀ d : Draft,
    declarations.foldl (declare namesOf) (ofDraft d)
      = ofDraft (declarations.foldl (Draft.declare namesOf) d) := by
  induction declarations with
  | nil => exact fun _ => rfl
  | cons declaration rest ih =>
      intro d
      have hstep : (ofDraft d).declare namesOf declaration
          = ofDraft (d.declare namesOf declaration) := by
        cases declaration with
        | scalar slot member wire => exact push_ofDraft d _
        | link slot linked member wire targets => exact push_ofDraft d _
        | choice => exact modifyLast_ofDraft d (fun _ => rfl) fun _ => rfl
        | eager => exact modifyLast_ofDraft d (fun _ => rfl) fun _ => rfl
        | readOnly => exact modifyLast_ofDraft d (fun _ => rfl) fun _ => rfl
        | _ => rfl
      rw [List.foldl_cons, List.foldl_cons, hstep, ih]

end Schema.Columns

/-! ### The finished schema -/

namespace Schema

/-- A field is the latest declaration of its attribute, as a whole: its member, the place of the
member in an entity, its targets, and the modifiers given after that declaration and before the next
one that maps a field. -/
def Latest (namesOf : TypeName → List String) (declarations : List Declaration) (f : Field) :
    Prop :=
  ∃ earlier declaration later declared,
    declarations = earlier ++ declaration :: later ∧
    declaration.field? namesOf = some declared ∧
    (∀ other ∈ later, ∀ g, other.field? namesOf = some g → g.wire ≠ f.wire) ∧
    f = declared.modified (Declaration.leading namesOf later)

/-- What a schema keeps of the declarations that it was built from. -/
structure Replays (namesOf : TypeName → List String) (declarations : List Declaration)
    (s : Schema) : Prop where
  /-- Attributes are named without blanks around them. -/
  trimmed : ∀ f ∈ s.fields, Text.trim f.wire = f.wire
  /-- No attribute is mapped twice. -/
  distinct : (s.fields.map Field.wire).Nodup
  /-- The attributes stand in the order of their first declarations. -/
  order : s.fields.map Field.wire
    = ((declarations.filterMap (·.field? namesOf)).map Field.wire).eraseDups
  /-- At each attribute stands its latest declaration. -/
  latest : ∀ f ∈ s.fields, Latest namesOf declarations f
  /-- Kept in two lists, the descriptors and the bindings of the fields stay in step. -/
  columns : (declarations.foldl (Columns.declare namesOf) {}).descriptors
        = s.fields.map Field.descriptor ∧
      (declarations.foldl (Columns.declare namesOf) {}).bindings = s.fields.map Field.binding
  /-- The links are, in field order, one for each target of each linked field. -/
  links : s.links = (s.fields.filter Field.isLink).flatMap fun f => f.targets.map fun target =>
    { member := f.member, sourceEntity := s.entity, sourceField := f.wire, childEntity := target,
      childField := identityAttribute target, eager := f.eager }

theorem fields_ofDeclarations (names : List String) (declarations : List Declaration) :
    (ofDeclarations namesOf names declarations).fields
      = (declaredFields namesOf declarations).foldl Draft.put [] :=
  Draft.fields_replay declarations _

theorem columns_ofDeclarations (names : List String) (declarations : List Declaration) :
    (declarations.foldl (Columns.declare namesOf) {}).descriptors
        = (ofDeclarations namesOf names declarations).fields.map Field.descriptor ∧
      (declarations.foldl (Columns.declare namesOf) {}).bindings
        = (ofDeclarations namesOf names declarations).fields.map Field.binding := by
  let empty : Schema :=
    { entity := (names.map Text.trim).headD "", names := names.map Text.trim }
  have hreplay : declarations.foldl (Columns.declare namesOf) {}
      = Columns.ofDraft (declarations.foldl (Draft.declare namesOf) ⟨empty, none⟩) :=
    Columns.replay_ofDraft declarations ⟨empty, none⟩
  exact ⟨congrArg Columns.descriptors hreplay, congrArg Columns.bindings hreplay⟩

theorem latest_of_mem {names : List String} {declarations : List Declaration} {f : Field}
    (hf : f ∈ (ofDeclarations namesOf names declarations).fields) :
    Latest namesOf declarations f := by
  rw [fields_ofDeclarations] at hf
  obtain ⟨before, after, hsplit, hlast⟩ := Draft.last_of_mem_foldl_put _ f hf
  obtain ⟨earlier, declaration, later, declared, rfl, hfield, rfl, rfl⟩ :=
    declaredFields_split hsplit
  refine ⟨earlier, declaration, later, declared, rfl, hfield, ?_, rfl⟩
  intro other hother g hg
  have hmem : g.wire ∈ (declaredFields namesOf later).map Field.wire := by
    rw [map_wire_declaredFields]
    exact List.mem_map_of_mem (List.mem_filterMap.mpr ⟨other, hother, hg⟩)
  obtain ⟨found, hfound, hwire⟩ := List.mem_map.mp hmem
  exact hwire ▸ hlast found hfound

theorem flatMap_linksOf (entity : String) (fields : List Field) :
    fields.flatMap (linksOf entity)
      = (fields.filter Field.isLink).flatMap fun f => f.targets.map fun target =>
          { member := f.member, sourceEntity := entity, sourceField := f.wire,
            childEntity := target, childField := identityAttribute target, eager := f.eager } := by
  induction fields with
  | nil => rfl
  | cons f rest ih =>
      by_cases hlink : f.isLink = true
      · rw [List.filter_cons_of_pos hlink, List.flatMap_cons, List.flatMap_cons, ih, linksOf,
          if_pos hlink]
      · rw [List.filter_cons_of_neg hlink, List.flatMap_cons, ih, linksOf, if_neg hlink,
          List.nil_append]

/-- **A built schema keeps the latest declaration of each attribute.**  Its attributes are trimmed,
distinct and in the order of their first declarations; each field is one declaration with the
modifiers behind it; and the links are those of the fields as they finally are. -/
theorem replays_ofDeclarations (namesOf : TypeName → List String) (names : List String)
    (declarations : List Declaration) :
    Replays namesOf declarations (ofDeclarations namesOf names declarations) := by
  have hb := built_ofDeclarations namesOf names declarations
  refine ⟨?_, hb.wires, ?_, fun f hf => latest_of_mem hf, ?_, ?_⟩
  · intro f hf
    obtain ⟨_, _, _, declared, -, hfield, -, rfl⟩ := latest_of_mem hf
    show Text.trim declared.wire = declared.wire
    exact trim_wire_of_field? hfield
  · rw [fields_ofDeclarations, Draft.map_wire_foldl_put, map_wire_declaredFields]
  · exact columns_ofDeclarations names declarations
  · rw [hb.links, flatMap_linksOf]

/-- A field that is declared again takes its place with its own modifiers. -/
example :
    (ofDeclarations (fun _ => []) ["account"]
      [.scalar ⟨"title", .plain .string⟩ "title" " name ", .readOnly,
        .scalar ⟨"rank", .plain .int32⟩ "rank" "rank",
        .scalar ⟨"code", .plain .int32⟩ "code" "name", .choice]).fields.map
      (fun f => (f.member, f.wire, f.isChoice, f.readOnly))
    = [("code", "name", true, false), ("rank", "rank", false, false)] := by
  decide +kernel

end Schema

end TypedRecords
