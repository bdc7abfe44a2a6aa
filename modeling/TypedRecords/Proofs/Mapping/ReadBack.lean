/-
When a written record can be read.

A field of a record can be read or not whatever was read before it, so a reading succeeds exactly
when each field can be read at its place.  In a record that was written for an entity that is so for
every scalar that was sent.  A lookup that was sent needs more: a link that is fetched later must be
able to read the placeholder for it, and a joined link must be declared to lead to the entity that
the lookup names.  That name was not looked at when the lookup was written.  It is the one that the
linked entity goes by, or the lookup it came through, and may be none.  A member that was not sent is
read from a code of the lifecycle where that shares its attribute.
-/
import TypedRecords.Proofs.Mapping.Depth
import TypedRecords.Proofs.Mapping.JoinPlace
import TypedRecords.Proofs.Mapping.RoundTrip
import Mathlib.Data.List.Induction

namespace TypedRecords

/-- A record reads as a type, without converters. -/
def Readable (catalog : Catalog) (type : TypeName) (record : Record) : Prop :=
  ∃ e, Entity.ofRecord catalog .empty type record = .ok e

/-! ### Scalars that a member takes -/

/-- A member of the type takes a scalar. -/
def MemberType.Takes (type : MemberType) (s : Scalar) : Prop :=
  ∃ current value, type.ofScalar current s = .ok value

/-- What a member held before does not matter. -/
theorem MemberType.Takes.of_any {type : MemberType} {s : Scalar} (h : type.Takes s)
    (current : type.Carrier) : ∃ value, type.ofScalar current s = .ok value := by
  obtain ⟨held, value, h⟩ := h
  cases type with
  | plain t => exact ⟨value, h⟩
  | optional t => exact ⟨value, h⟩
  | coded set =>
      obtain ⟨code, hcode, -⟩ := map_eq_ok.mp h
      exact ⟨code.getD current, map_eq_ok.mpr ⟨code, hcode, rfl⟩⟩
  | optionalCoded set => exact ⟨value, h⟩

namespace Schema

variable {s : Schema} {f : Field}

/-- A lookup attribute has a link to a target exactly when its field declares the target. -/
theorem Built.exists_findLink?_some (hb : s.Built) (hf : f ∈ s.fields) (hlink : f.isLink = true)
    {target : String} {P : String → Prop} :
    (∃ link, s.findLink? f.wire (some target) = some link ∧ P link.childEntity)
      ↔ target ∈ f.targets ∧ P target := by
  have hlinks := hb.linksFrom_of_link hf hlink
  have hfind : s.findLink? f.wire (some target)
      = (s.linksFrom f.wire).find? (·.childEntity = target) := rfl
  rw [hfind, hlinks]
  constructor
  · rintro ⟨link, hfound, hp⟩
    have hchild : link.childEntity = target := by simpa using List.find?_some hfound
    obtain ⟨name, hname, rfl⟩ := List.mem_map.mp (List.mem_of_find?_eq_some hfound)
    obtain rfl : name = target := hchild
    exact ⟨hname, hp⟩
  · rintro ⟨hmem, hp⟩
    rw [← hlinks]
    cases hfound : (s.linksFrom f.wire).find? (·.childEntity = target) with
    | some link =>
        have hchild : link.childEntity = target := by simpa using List.find?_some hfound
        exact ⟨link, rfl, hchild ▸ hp⟩
    | none =>
        have hmem : ⟨f.member, s.entity, f.wire, target, identityAttribute target, f.eager⟩
            ∈ s.linksFrom f.wire := by
          rw [hlinks]
          exact List.mem_map_of_mem hmem
        simpa using List.find?_eq_none.mp hfound _ hmem

/-- The link that is found for no target leads to the first one, if there is any. -/
theorem Built.exists_findLink?_none (hb : s.Built) (hf : f ∈ s.fields) (hlink : f.isLink = true)
    {P : String → Prop} :
    (∃ link, s.findLink? f.wire none = some link ∧ P link.childEntity)
      ↔ ∃ target ∈ f.targets.head?, P target := by
  rw [hb.findLink?_none hf hlink]
  cases f.targets.head? with
  | none => simp
  | some target => simp [linkTo]

end Schema

namespace Mapping

variable {nested : Reader} {vacant : Vacancy} {catalog : Catalog} {s : Schema}
  {converters : Converters} {record : Record} {place : Nat} {f : Field} {e c c' : Entity}
  {value : Scalar}

/-! ### Fields that can be read -/

/-- A field's member can be filled from a value that came in. -/
def Suits (nested : Reader) (s : Schema) (record : Record) (place : Nat) (f : Field)
    (value : Scalar) : Prop :=
  match f.binding with
  | .scalar slot => slot.type.Takes value
  | .link _ linked => ∃ source, content s record place f value = .ok source ∧
      ∀ l ∈ source, ∃ child, nested linked l.record = .ok child

/-- A field can be read from a record: what the record has for it, if anything, comes in and suits
the member. -/
def Accepts (nested : Reader) (s : Schema) (converters : Converters) (record : Record)
    (place : Nat) (f : Field) : Prop :=
  ∀ raw, record.get? f.wire = some raw →
    ∃ value, incoming converters f raw = .ok value ∧ Suits nested s record place f value

theorem accepts_iff {raw : Value} (hraw : record.get? f.wire = some raw)
    (hvalue : incoming converters f raw = .ok value) :
    Accepts nested s converters record place f ↔ Suits nested s record place f value := by
  constructor
  · intro h
    obtain ⟨value', hvalue', hsuits⟩ := h raw hraw
    cases hvalue.symm.trans hvalue'
    exact hsuits
  · intro hsuits raw' hraw'
    cases hraw.symm.trans hraw'
    exact ⟨value, hvalue, hsuits⟩

theorem Filled.accepts (h : Filled nested vacant s converters record place f c c') :
    Accepts nested s converters record place f := by
  cases h with
  | untouched habsent =>
      intro raw hraw
      cases habsent.symm.trans hraw
  | scalar hbinding hraw hvalue hwrite =>
      rw [accepts_iff hraw hvalue, Suits, hbinding]
      obtain ⟨held, hheld, -⟩ := map_eq_ok.mp hwrite
      exact ⟨_, held, hheld⟩
  | cleared hbinding hraw hvalue hcontent =>
      rw [accepts_iff hraw hvalue, Suits, hbinding]
      exact ⟨none, hcontent, nofun⟩
  | @linked slot linked raw value source child hbinding hraw hvalue hcontent hchild =>
      rw [accepts_iff hraw hvalue, Suits, hbinding]
      refine ⟨some source, hcontent, fun l hl => ?_⟩
      cases hl
      exact ⟨child, hchild⟩

theorem filling_of_incoming {raw : Value} (hraw : record.get? f.wire = some raw)
    (hvalue : incoming converters f raw = .ok value) :
    filling s converters record place f
      = match f.binding with
        | .scalar slot => .ok (.scalar slot value)
        | .link slot linked => .link slot linked <$> content s record place f value := by
  unfold filling
  rw [hraw]
  dsimp only
  rw [hvalue]
  rfl

theorem filling_of_absent (habsent : record.get? f.wire = none) :
    filling s converters record place f = .ok .untouched := by
  unfold filling
  rw [habsent]

/-- A field that can be read is, into any entity. -/
theorem Accepts.exists_fill (h : Accepts nested s converters record place f) (c : Entity) :
    ∃ c', fill nested vacant s c (f, filling s converters record place f) = .ok c' := by
  cases hraw : record.get? f.wire with
  | none =>
      exact ⟨c, by rw [filling_of_absent hraw]; rfl⟩
  | some raw =>
      obtain ⟨value, hvalue, hsuits⟩ := h raw hraw
      unfold Suits at hsuits
      rw [filling_of_incoming hraw hvalue]
      cases hbinding : f.binding with
      | scalar slot =>
          rw [hbinding] at hsuits
          obtain ⟨held, hheld⟩ := hsuits.of_any (c.members.get slot)
          have hwrite : c.members.write slot value = .ok (c.members.set slot held) :=
            map_eq_ok.mpr ⟨held, hheld, rfl⟩
          exact ⟨{ c with members := c.members.set slot held },
            bind_eq_ok.mpr ⟨_, rfl, bind_eq_ok.mpr ⟨_, mapError_eq_ok.mpr hwrite, rfl⟩⟩⟩
      | link slot linked =>
          rw [hbinding] at hsuits
          obtain ⟨source, hcontent, hchild⟩ := hsuits
          cases source with
          | none =>
              exact ⟨c.setLink slot (vacant slot linked),
                bind_eq_ok.mpr ⟨_, map_eq_ok.mpr ⟨none, hcontent, rfl⟩, rfl⟩⟩
          | some l =>
              obtain ⟨child, hchild⟩ := hchild l rfl
              exact ⟨c.setLink slot (some (settle l child)),
                bind_eq_ok.mpr ⟨_, map_eq_ok.mpr ⟨some l, hcontent, rfl⟩,
                  bind_eq_ok.mpr ⟨child, hchild, rfl⟩⟩⟩

/-- **The fields of a record can be read exactly when each of them can at its place.** -/
theorem exists_fillAll_iff {fields : List Field} {e : Entity} :
    (∃ e', fillAll nested vacant s converters record place fields e = .ok e') ↔
      ∀ before f after, fields = before ++ f :: after →
        Accepts nested s converters record (place + met record before) f := by
  constructor
  · rintro ⟨e', h⟩ before f after rfl
    obtain ⟨c, c', next, -, hfilled, -⟩ := fillAll_split h
    exact hfilled.accepts
  · induction fields using List.reverseRecOn with
    | nil => exact fun _ => ⟨e, rfl⟩
    | append_singleton before f ih =>
        intro h
        obtain ⟨c, hc⟩ := ih fun first g rest hsplit =>
          h first g (rest ++ [f]) (by rw [hsplit, List.append_assoc]; rfl)
        obtain ⟨c', hc'⟩ := (h before f [] rfl).exists_fill c
        refine ⟨c', ?_⟩
        unfold fillAll
        rw [fillings_append]
        exact foldlM_append_eq_ok.mpr ⟨c, hc, foldlM_cons_eq_ok.mpr ⟨c', hc', rfl⟩⟩

/-! ### Links that can be read -/

/-- A joined link is filled from what is under the alias of the link that is found. -/
theorem exists_joined_iff {P : Record → Prop} (hnull : value.isNull = false) :
    (∃ source, joined s record place f value = .ok source ∧ ∀ l ∈ source, P l.record) ↔
      ∃ link, s.findLink? f.wire ((lookup? value).map (·.entity)) = some link ∧
        P (record.extract link.childEntity place) := by
  unfold joined
  rw [if_neg (by simp [hnull])]
  cases hfind : s.findLink? f.wire ((lookup? value).map (·.entity)) with
  | none => simp [hfind]
  | some link => simp [hfind]

section

variable (hb : s.Built) (hf : f ∈ s.fields) {slot : String} {linked : TypeName}
  (hbinding : f.binding = .link slot linked)

include hb hf hbinding

/-- What a link needs to be filled from a lookup. -/
theorem suits_reference (r : Reference) :
    Suits nested s record place f (.reference r) ↔
      if f.eager then ∃ child, nested linked (placeholder r) = .ok child
      else r.entity ∈ f.targets ∧
        ∃ child, nested linked (record.extract r.entity place) = .ok child := by
  have hlink := Schema.isLink_of_binding hbinding
  unfold Suits content
  rw [hbinding]
  cases heager : f.eager with
  | true => simp [pending]
  | false =>
      simp only [Bool.false_eq_true, if_false]
      exact (exists_joined_iff (P := fun l => ∃ child, nested linked l = .ok child) rfl).trans
        (hb.exists_findLink?_some hf hlink
          (P := fun name => ∃ child, nested linked (record.extract name place) = .ok child))

/-- What a link needs to be filled from an option code: it must be joined, and is filled from what
is under the alias of its first target. -/
theorem suits_choice (c : Choice) :
    Suits nested s record place f (.choice c) ↔
      f.eager = false ∧ ∃ target ∈ f.targets.head?,
        ∃ child, nested linked (record.extract target place) = .ok child := by
  have hlink := Schema.isLink_of_binding hbinding
  unfold Suits content
  rw [hbinding]
  cases heager : f.eager with
  | true => simp [pending]
  | false =>
      simp only [Bool.false_eq_true, if_false, true_and]
      exact (exists_joined_iff (P := fun l => ∃ child, nested linked l = .ok child) rfl).trans
        (hb.exists_findLink?_none hf hlink
          (P := fun name => ∃ child, nested linked (record.extract name place) = .ok child))

end

/-! ### Fields of a written record -/

/-- An option code comes in as it is. -/
theorem incoming_optionSet (f : Field) (code : Int32) :
    incoming .empty f (.optionSet code) = .ok (.choice ⟨code⟩) := by
  rw [incoming_empty]
  cases f.isChoice with
  | true => rfl
  | false => rfl

/-- What the lifecycle writes are option codes, under its two names. -/
theorem basis_get?_cases {name : String} {h : Header} {raw : Value}
    (hget : (basis s h).get? name = some raw) :
    (name = s.stateField ∨ name = s.statusField) ∧ ∃ code, raw = .optionSet code := by
  by_cases hstatus : h.status ≠ none ∧ name = s.statusField
  · obtain ⟨hsome, hname⟩ := hstatus
    obtain ⟨status, hstatus⟩ := Option.ne_none_iff_exists'.mp hsome
    simp only [basis, hstatus] at hget
    rw [Record.get?_set, if_pos hname] at hget
    cases hget
    exact ⟨.inr hname, status, rfl⟩
  · rw [basis_get?_of_no_status fun hsome hname => hstatus ⟨hsome, hname⟩] at hget
    split at hget
    · rename_i hstate
      cases hget
      exact ⟨.inl hstate.2, _, rfl⟩
    · cases hget

/-- What a written record has for a field: nothing, what the field sent, or, for a field that sent
nothing, a code of the lifecycle. -/
theorem Sent.get?_cases (hb : s.Built) (hsent : Sent s .empty e record) (hf : f ∈ s.fields) :
    record.get? f.wire = none ∨
      (∃ out, Sends e f ∧ outgoing .empty f (e.read f) = .ok out ∧
        record.get? f.wire = some out.toValue) ∨
      ∃ code, ¬Sends e f ∧ record.get? f.wire = some (.optionSet code) := by
  by_cases hsends : Sends e f
  · obtain ⟨out, hout, hget⟩ := hsent.members f hf hsends
    exact .inr (.inl ⟨out, hsends, hout, hget⟩)
  · rw [hsent.get?_of_not_sends hb hf hsends]
    cases hbasis : (basis s e.header).get? f.wire with
    | none => exact .inl rfl
    | some raw =>
        obtain ⟨-, code, rfl⟩ := basis_get?_cases hbasis
        exact .inr (.inr ⟨code, hsends, rfl⟩)

/-- What it takes to read a field back from the record written for an entity. -/
def ReadsBack (catalog : Catalog) (e : Entity) (record : Record) (place : Nat) (f : Field) : Prop :=
  match f.binding with
  | .scalar slot =>
    -- A member that sent nothing takes the code that the lifecycle has under its attribute.
    ¬Sends e f → ∀ code, record.get? f.wire = some (.optionSet code) →
      slot.type.Takes (.choice ⟨code⟩)
  | .link _ linked =>
    -- A lookup is read as a placeholder, or it names a target and leads to what the record has
    -- under the target's alias.
    (∀ r, record.get? f.wire = some (.reference r) →
      if f.eager then Readable catalog linked (placeholder r)
      else r.entity ∈ f.targets ∧ Readable catalog linked (record.extract r.entity place)) ∧
    -- A code of the lifecycle leads to what the record has under the first target's alias.
    ∀ code, record.get? f.wire = some (.optionSet code) →
      f.eager = false ∧ ∃ target ∈ f.targets.head?,
        Readable catalog linked (record.extract target place)

/-- A scalar takes back what it sent, so only a code of the lifecycle can fail it. -/
theorem Sent.accepts_scalar {slot : Slot} (hb : s.Built) (hsent : Sent s .empty e record)
    (hf : f ∈ s.fields) (hbinding : f.binding = .scalar slot) :
    Accepts nested s .empty record place f ↔
      (¬Sends e f → ∀ code, record.get? f.wire = some (.optionSet code) →
        slot.type.Takes (.choice ⟨code⟩)) := by
  rcases hsent.get?_cases hb hf with hget | ⟨out, hsends, hout, hget⟩ | ⟨code, hnot, hget⟩
  · simp [Accepts, hget]
  · refine iff_of_true ?_ fun hnot => absurd hsends hnot
    rw [accepts_iff hget (incoming_outgoing hout)]
    obtain ⟨-, hnull⟩ := hsends
    rw [outgoing_empty] at hout
    unfold Entity.read at hnull hout
    unfold Suits
    rw [hbinding] at hnull hout ⊢
    exact ⟨slot.type.blank, _, MemberType.ofScalar_sent hnull hout _⟩
  · rw [accepts_iff hget (incoming_optionSet f code), Suits, hbinding]
    simp [hnot, hget]

/-- A link is read back from the lookup it sent, or from a code of the lifecycle. -/
theorem Sent.accepts_link {slot : String} {linked : TypeName} (hb : s.Built)
    (hsent : Sent s .empty e record) (hf : f ∈ s.fields)
    (hbinding : f.binding = .link slot linked) :
    Accepts nested s .empty record place f ↔
      (∀ r, record.get? f.wire = some (.reference r) →
        if f.eager then ∃ child, nested linked (placeholder r) = .ok child
        else r.entity ∈ f.targets ∧
          ∃ child, nested linked (record.extract r.entity place) = .ok child) ∧
      ∀ code, record.get? f.wire = some (.optionSet code) →
        f.eager = false ∧ ∃ target ∈ f.targets.head?,
          ∃ child, nested linked (record.extract target place) = .ok child := by
  rcases hsent.get?_cases hb hf with hget | ⟨out, hsends, hout, hget⟩ | ⟨code, -, hget⟩
  · simp [Accepts, hget]
  · obtain ⟨r, -, rfl⟩ := outgoing_link hbinding hsends.2 hout
    rw [accepts_iff hget (incoming_outgoing hout), suits_reference hb hf hbinding]
    simp [hget, Scalar.toValue]
  · rw [accepts_iff hget (incoming_optionSet f code), suits_choice hb hf hbinding]
    simp [hget]

theorem Sent.accepts_iff_readsBack (hb : s.Built) (hsent : Sent s .empty e record)
    (hf : f ∈ s.fields) :
    Accepts (Entity.ofRecord catalog .empty) s .empty record place f ↔
      ReadsBack catalog e record place f := by
  unfold ReadsBack
  cases hbinding : f.binding with
  | scalar slot => exact hsent.accepts_scalar hb hf hbinding
  | link slot linked => exact hsent.accepts_link hb hf hbinding

/-! ### Whole records -/

/-- A type whose schema keeps out of the way of its own records: no attribute of a field is the
lifecycle's, no attribute looks as if it came from a join, and placeholders for links that are
fetched later can be read. -/
structure Plain (catalog : Catalog) (s : Schema) : Prop where
  apart : ∀ f ∈ s.fields, f.wire ≠ s.stateField ∧ f.wire ≠ s.statusField
  state : '.' ∉ s.stateField.toList
  status : '.' ∉ s.statusField.toList
  wires : ∀ f ∈ s.fields, '.' ∉ f.wire.toList
  placeholders : ∀ f ∈ s.fields, ∀ slot linked, f.binding = .link slot linked → f.eager = true →
    ∀ r, Readable catalog linked (placeholder r)

/-- Nothing in a record of a plain type looks as if it came from a join. -/
theorem Sent.undotted (hplain : Plain catalog s) (hsent : Sent s converters e record) :
    record.Undotted := by
  intro name hsome
  by_cases hfield : ∃ f ∈ s.fields, Sends e f ∧ name = f.wire
  · obtain ⟨f, hf, -, rfl⟩ := hfield
    exact hplain.wires f hf
  · rw [hsent.others name fun f hf hsends hname => hfield ⟨f, hf, hsends, hname⟩] at hsome
    obtain ⟨raw, hraw⟩ := Option.isSome_iff_exists.mp hsome
    rcases (basis_get?_cases hraw).1 with rfl | rfl
    · exact hplain.state
    · exact hplain.status

theorem readable_blank {type : TypeName} (hblank : record.isBlank = true) :
    Readable catalog type record := ⟨_, ofRecord_blank hblank⟩

/-- In a plain type, a field can be read back if it is no joined link or names a target. -/
theorem Sent.readsBack_of_plain (hb : s.Built) (hplain : Plain catalog s)
    (hsent : Sent s .empty e record) (hf : f ∈ s.fields)
    (htarget : f.isJoined = true → ∀ r, record.get? f.wire = some (.reference r) →
      r.entity ∈ f.targets) : ReadsBack catalog e record place f := by
  have habsent : ¬Sends e f → record.get? f.wire = none :=
    fun hnot => hsent.absent hb hf (hplain.apart f hf) hnot
  unfold ReadsBack
  cases hbinding : f.binding with
  | scalar slot =>
      intro hnot code hget
      cases (habsent hnot).symm.trans hget
  | link slot linked =>
      refine ⟨fun r hget => ?_, fun code hget => ?_⟩
      · cases heager : f.eager with
        | true => exact hplain.placeholders f hf slot linked hbinding heager r
        | false =>
            obtain ⟨-, hjoined⟩ := isJoined_of_link hbinding heager
            exact ⟨htarget hjoined r hget,
              readable_blank ((hsent.undotted hplain).isBlank_extract r.entity place)⟩
      · rcases hsent.get?_cases hb hf with hnone | ⟨out, hsends, hout, hout'⟩ | ⟨_, hnot, -⟩
        · cases hnone.symm.trans hget
        · obtain ⟨r, -, rfl⟩ := outgoing_link hbinding hsends.2 hout
          cases hout'.symm.trans hget
        · cases (habsent hnot).symm.trans hget

/-- A joined link that is read back names a target. -/
theorem ReadsBack.mem_targets (h : ReadsBack catalog e record place f) (hjoined : f.isJoined = true)
    {r : Reference} (hget : record.get? f.wire = some (.reference r)) : r.entity ∈ f.targets := by
  obtain ⟨hlink, heager⟩ := Bool.and_eq_true_iff.mp hjoined
  obtain ⟨slot, linked, hbinding⟩ := Schema.exists_link_of_isLink hlink
  unfold ReadsBack at h
  rw [hbinding] at h
  have hread := h.1 r hget
  rw [if_neg (by simpa using heager)] at hread
  exact hread.1

/-- **A written record can be read exactly when each of its fields can be read back.** -/
theorem readable_iff_readsBack {type : TypeName} (hs : catalog.schema? type = some s)
    (hsent : Sent s .empty e record) :
    Readable catalog type record ↔ ∀ before f after, s.fields = before ++ f :: after →
      ReadsBack catalog e record (met record before + 1) f := by
  have hb := Catalog.built_of_schema? hs
  have hmem : ∀ {before f after}, s.fields = before ++ f :: after → f ∈ s.fields :=
    fun hsplit => by simp [hsplit]
  cases hblank : record.isBlank with
  | true =>
      refine iff_of_true (readable_blank hblank) fun before f after hsplit => ?_
      refine (hsent.accepts_iff_readsBack hb (hmem hsplit)).mp fun raw hraw => ?_
      cases (Record.get?_of_isBlank hblank _).symm.trans hraw
  | false =>
      unfold Readable
      rw [ofRecord_eq_fillAll Converters.makesNoLookups_empty hs hblank, exists_fillAll_iff]
      constructor
      · intro h before f after hsplit
        rw [← hsent.accepts_iff_readsBack hb (hmem hsplit), Nat.add_comm]
        exact h before f after hsplit
      · intro h before f after hsplit
        rw [hsent.accepts_iff_readsBack hb (hmem hsplit), Nat.add_comm]
        exact h before f after hsplit

/--
**What is written can be read exactly when each field can be read back.**

That is for each field to itself, at the place that counts the joined links met before it; a scalar
that was sent never fails.  For a type whose schema keeps out of the way of its own records there is
only one thing left to ask: every lookup that was sent for a joined link names one of the link's
targets.
-/
theorem readable_toRecord_iff {type : TypeName} (hs : catalog.schema? type = some s)
    (hwrite : e.toRecord catalog .empty type = .ok record) :
    (Readable catalog type record ↔ ∀ before f after, s.fields = before ++ f :: after →
      ReadsBack catalog e record (met record before + 1) f) ∧
    (Plain catalog s → (Readable catalog type record ↔
      ∀ f ∈ s.fields, f.isJoined = true → ∀ r, record.get? f.wire = some (.reference r) →
        r.entity ∈ f.targets)) := by
  have hsent := sent_of_toRecord hs hwrite
  have hfields := readable_iff_readsBack hs hsent
  refine ⟨hfields, fun hplain => hfields.trans ⟨?_, ?_⟩⟩
  · intro h f hf hjoined r hget
    obtain ⟨before, after, hsplit⟩ := List.append_of_mem hf
    exact (h before f after hsplit).mem_targets hjoined hget
  · intro h before f after hsplit
    have hf : f ∈ s.fields := by simp [hsplit]
    exact hsent.readsBack_of_plain (Catalog.built_of_schema? hs) hplain hf (h f hf)

/-! ### Accounts with a contact -/

/-- An account with a primary contact that goes by a name. -/
def contacted (name : String) : Entity where
  header := { id := ⟨4, by decide⟩, entity := "account" }
  links := [("primary", { header := { id := ann.id, entity := name } })]

/-- Accounts and their contacts keep out of each other's way. -/
theorem plain_clients : Plain clients clientSchema where
  apart := by decide +kernel
  state := by decide +kernel
  status := by decide +kernel
  wires := by decide +kernel
  placeholders := by
    intro f hf slot linked _ heager
    have hjoined : ∀ f ∈ clientSchema.fields, f.eager = false := by decide +kernel
    cases (hjoined f hf).symm.trans heager

theorem readable_toRecord_iff_contacted :
    ∃ record, clients.schema? "Account" = some clientSchema ∧ Plain clients clientSchema ∧
      (contacted "contact").toRecord clients .empty "Account" = .ok record ∧
      record.get? "primarycontactid" = some (.reference ann) ∧
      Readable clients "Account" record := by
  have hs : clients.schema? "Account" = some clientSchema := rfl
  have hwrite : ∃ record, (contacted "contact").toRecord clients .empty "Account" = .ok record ∧
      record.get? "primarycontactid" = some (.reference ann) ∧
      record.get? "billingcontactid" = none := ⟨_, rfl, rfl, rfl⟩
  obtain ⟨record, hwrite, hprimary, hbilling⟩ := hwrite
  refine ⟨record, hs, plain_clients, hwrite, hprimary, ?_⟩
  refine ((readable_toRecord_iff hs hwrite).2 plain_clients).mpr fun f hf _ r hget => ?_
  have hfields : clientSchema.fields = [primaryContact, billingContact] := rfl
  rw [hfields] at hf
  rcases List.mem_cons.mp hf with rfl | hf
  · cases hprimary.symm.trans hget
    exact List.mem_singleton_self _
  · obtain rfl := List.mem_singleton.mp hf
    cases hbilling.symm.trans hget

/-- A contact without a name is written as a lookup without one, and such an account cannot be
read. -/
theorem nameless_not_readable :
    ∃ record, clients.schema? "Account" = some clientSchema ∧ Plain clients clientSchema ∧
      (contacted "").toRecord clients .empty "Account" = .ok record ∧
      primaryContact ∈ clientSchema.fields ∧ primaryContact.isJoined = true ∧
      record.get? primaryContact.wire = some (.reference ⟨"", ann.id⟩) ∧
      "" ∉ primaryContact.targets ∧ ¬Readable clients "Account" record := by
  have hfields : clientSchema.fields = [primaryContact, billingContact] := rfl
  have hwrite : ∃ record, (contacted "").toRecord clients .empty "Account" = .ok record ∧
      record.get? primaryContact.wire = some (.reference ⟨"", ann.id⟩) ∧
      Entity.ofRecord clients .empty "Account" record
        = .error ⟨"account", "primarycontactid", .noLink ""⟩ := ⟨_, rfl, rfl, rfl⟩
  obtain ⟨record, hwrite, hget, hfails⟩ := hwrite
  refine ⟨record, rfl, plain_clients, hwrite, by simp [hfields], rfl, hget, by decide, ?_⟩
  rintro ⟨e, hread⟩
  cases hfails.symm.trans hread

end Mapping

end TypedRecords
