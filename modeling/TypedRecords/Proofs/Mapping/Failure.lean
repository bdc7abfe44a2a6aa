/-
Why a reading fails.

A reading fails as the first field, in the order of the table, that cannot be read.  The error names
the type's entity and the field's attribute when the fault is the field's own: its value is refused
on the way in or by the member, or a link cannot be filled from it.  Only a record that a link is
filled from can fail with an error that names something else, since it is read as another type.
What the members held before plays no part.
-/
import TypedRecords.Proofs.Mapping.ReadBack

namespace TypedRecords

/-- A member refuses a scalar whatever it held before. -/
theorem MemberType.ofScalar_eq_error_iff {type : MemberType} {current other : type.Carrier}
    {value : Scalar} {cause : ConversionError} :
    type.ofScalar current value = .error cause ↔ type.ofScalar other value = .error cause := by
  cases type with
  | plain t => rfl
  | optional t => rfl
  | coded set => exact map_eq_error.trans map_eq_error.symm
  | optionalCoded set => rfl

namespace Mapping

variable {nested : Reader} {vacant : Vacancy} {s : Schema} {converters : Converters}
  {record : Record} {place : Nat} {f : Field} {value : Scalar}

/-! ### One field -/

/-- What is wrong with a field's own attribute. -/
inductive Faulty (s : Schema) (converters : Converters) (record : Record) (f : Field) :
    MappingProblem → Prop
  /-- The value does not come in. -/
  | refused {raw : Value} {cause : ConversionError} (hraw : record.get? f.wire = some raw)
      (hvalue : incoming converters f raw = .error cause) :
      Faulty s converters record f (.conversion cause)
  /-- The member does not take the value. -/
  | unwritten {slot : Slot} {raw : Value} {value : Scalar} {cause : ConversionError}
      (hbinding : f.binding = .scalar slot) (hraw : record.get? f.wire = some raw)
      (hvalue : incoming converters f raw = .ok value)
      (hwrite : slot.type.ofScalar slot.type.blank value = .error cause) :
      Faulty s converters record f (.conversion cause)
  /-- A link that is fetched later has something other than a lookup. -/
  | notALookup {slot : String} {linked : TypeName} {raw : Value} {value : Scalar}
      (hbinding : f.binding = .link slot linked) (heager : f.eager = true)
      (hraw : record.get? f.wire = some raw) (hvalue : incoming converters f raw = .ok value)
      (hnull : value ≠ .null) (hlookup : lookup? value = none) :
      Faulty s converters record f (.notALookup value.kind)
  /-- No link is declared to where a joined one leads. -/
  | noLink {slot : String} {linked : TypeName} {raw : Value} {value : Scalar}
      (hbinding : f.binding = .link slot linked) (heager : f.eager = false)
      (hraw : record.get? f.wire = some raw) (hvalue : incoming converters f raw = .ok value)
      (hnull : value ≠ .null)
      (hfind : s.findLink? f.wire ((lookup? value).map (·.entity)) = none) :
      Faulty s converters record f (.noLink (((lookup? value).map (·.entity)).getD ""))

/-- The error that a field fails with, as the `place`-th joined one if it is joined. -/
inductive FailsWith (nested : Reader) (s : Schema) (converters : Converters) (record : Record)
    (place : Nat) (f : Field) : MappingError → Prop
  /-- The field's own fault is told with the type's entity and the field's attribute. -/
  | own {problem : MappingProblem} (h : Faulty s converters record f problem) :
      FailsWith nested s converters record place f ⟨s.entity, f.wire, problem⟩
  /-- The record that a link is filled from fails. -/
  | linked {slot : String} {linked : TypeName} {source : Linked} {error : MappingError}
      (hfilling : filling s converters record place f = .ok (.link slot linked (some source)))
      (hchild : nested linked source.record = .error error) :
      FailsWith nested s converters record place f error

/-- A failed conversion is an error of the field. -/
theorem located_eq_error_iff {α : Type} {result : Except ConversionError α} {error : MappingError} :
    located s f result = .error error ↔
      ∃ cause, result = .error cause ∧ error = ⟨s.entity, f.wire, .conversion cause⟩ := by
  cases result with
  | error cause => simp [located, Except.mapError, eq_comm]
  | ok a => simp [located, Except.mapError]

/-- Why a link has no content. -/
theorem content_eq_error_iff {error : MappingError} :
    content s record place f value = .error error ↔ value ≠ .null ∧
      (f.eager = true ∧ lookup? value = none ∧
          error = ⟨s.entity, f.wire, .notALookup value.kind⟩ ∨
        f.eager = false ∧ s.findLink? f.wire ((lookup? value).map (·.entity)) = none ∧
          error = ⟨s.entity, f.wire, .noLink (((lookup? value).map (·.entity)).getD "")⟩) := by
  unfold content
  cases f.eager with
  | true =>
      cases value with
      | null => simp [pending]
      | reference r => simp [pending, lookup?]
      | _ => simp [pending, lookup?, eq_comm]
  | false =>
      unfold joined
      by_cases hnull : value = .null
      · simp [hnull, Scalar.isNull]
      · cases hfind : s.findLink? f.wire ((lookup? value).map (·.entity)) with
        | none => simp [Scalar.isNull, hnull, hfind, eq_comm]
        | some link => simp [Scalar.isNull, hnull, hfind]

theorem filling_of_refused {raw : Value} {cause : ConversionError}
    (hraw : record.get? f.wire = some raw) (hvalue : incoming converters f raw = .error cause) :
    filling s converters record place f = .error ⟨s.entity, f.wire, .conversion cause⟩ := by
  unfold filling
  rw [hraw]
  dsimp only
  rw [hvalue]
  rfl

theorem filling_of_scalar {slot : Slot} {raw : Value} (hbinding : f.binding = .scalar slot)
    (hraw : record.get? f.wire = some raw) (hvalue : incoming converters f raw = .ok value) :
    filling s converters record place f = .ok (.scalar slot value) := by
  rw [filling_of_incoming hraw hvalue, hbinding]

theorem filling_of_link {slot : String} {linked : TypeName} {raw : Value}
    (hbinding : f.binding = .link slot linked) (hraw : record.get? f.wire = some raw)
    (hvalue : incoming converters f raw = .ok value) :
    filling s converters record place f
      = .link slot linked <$> content s record place f value := by
  rw [filling_of_incoming hraw hvalue, hbinding]

theorem failsWith_of_fill {c : Entity} {error : MappingError}
    (h : fill nested vacant s c (f, filling s converters record place f) = .error error) :
    FailsWith nested s converters record place f error := by
  cases hraw : record.get? f.wire with
  | none =>
      rw [filling_of_absent hraw] at h
      cases h
  | some raw =>
      cases hvalue : incoming converters f raw with
      | error cause =>
          rw [filling_of_refused hraw hvalue] at h
          cases h
          exact .own (.refused hraw hvalue)
      | ok value =>
          cases hbinding : f.binding with
          | scalar slot =>
              rw [filling_of_scalar hbinding hraw hvalue] at h
              have h : (located s f (c.members.write slot value) >>= fun members =>
                  pure { c with members }) = .error error := h
              rcases bind_eq_error.mp h with h | ⟨members, -, h⟩
              · obtain ⟨cause, hwrite, rfl⟩ := located_eq_error_iff.mp h
                exact .own (.unwritten hbinding hraw hvalue
                  (MemberType.ofScalar_eq_error_iff.mp (map_eq_error.mp hwrite)))
              · cases h
          | link slot linked =>
              have hfilling : filling s converters record place f
                  = .link slot linked <$> content s record place f value :=
                filling_of_link hbinding hraw hvalue
              rw [hfilling] at h
              rcases bind_eq_error.mp h with h | ⟨step, hstep, h⟩
              · obtain ⟨hnull, ⟨heager, hlookup, rfl⟩ | ⟨heager, hfind, rfl⟩⟩ :=
                  content_eq_error_iff.mp (map_eq_error.mp h)
                · exact .own (.notALookup hbinding heager hraw hvalue hnull hlookup)
                · exact .own (.noLink hbinding heager hraw hvalue hnull hfind)
              · obtain ⟨source, hcontent, rfl⟩ := map_eq_ok.mp hstep
                cases source with
                | none => cases h
                | some source =>
                    rcases bind_eq_error.mp h with hchild | ⟨child, -, h⟩
                    · exact .linked (by rw [hfilling, hcontent]; rfl) hchild
                    · cases h

theorem FailsWith.fill_eq {error : MappingError}
    (h : FailsWith nested s converters record place f error) (c : Entity) :
    fill nested vacant s c (f, filling s converters record place f) = .error error := by
  cases h with
  | own hfault =>
      cases hfault with
      | refused hraw hvalue =>
          rw [filling_of_refused hraw hvalue]
          rfl
      | unwritten hbinding hraw hvalue hwrite =>
          have hrefused : c.members.write _ _ = .error _ :=
            map_eq_error.mpr (MemberType.ofScalar_eq_error_iff.mp hwrite)
          rw [filling_of_scalar hbinding hraw hvalue]
          refine bind_eq_error.mpr (.inr ⟨_, rfl, bind_eq_error.mpr (.inl ?_)⟩)
          exact located_eq_error_iff.mpr ⟨_, hrefused, rfl⟩
      | notALookup hbinding heager hraw hvalue hnull hlookup =>
          have hcontent : content s record place f _ = .error _ :=
            content_eq_error_iff.mpr ⟨hnull, .inl ⟨heager, hlookup, rfl⟩⟩
          rw [filling_of_link hbinding hraw hvalue, hcontent]
          rfl
      | noLink hbinding heager hraw hvalue hnull hfind =>
          have hcontent : content s record place f _ = .error _ :=
            content_eq_error_iff.mpr ⟨hnull, .inr ⟨heager, hfind, rfl⟩⟩
          rw [filling_of_link hbinding hraw hvalue, hcontent]
          rfl
  | linked hfilling hchild =>
      rw [hfilling]
      exact bind_eq_error.mpr (.inr ⟨_, rfl, bind_eq_error.mpr (.inl hchild)⟩)

/-- **A field fails with its own fault or with that of a linked record**, whatever entity is being
filled. -/
theorem fill_eq_error_iff {c : Entity} {error : MappingError} :
    fill nested vacant s c (f, filling s converters record place f) = .error error ↔
      FailsWith nested s converters record place f error :=
  ⟨failsWith_of_fill, fun h => h.fill_eq c⟩

/-! ### All fields -/

/-- The fields of a record fail with an error: it is that of the first one that cannot be read. -/
def FailsFirst (nested : Reader) (s : Schema) (converters : Converters) (record : Record)
    (place : Nat) (fields : List Field) (error : MappingError) : Prop :=
  ∃ before f after, fields = before ++ f :: after ∧
    (∀ first g rest, before = first ++ g :: rest →
      Accepts nested s converters record (place + met record first) g) ∧
    FailsWith nested s converters record (place + met record before) f error

theorem map_fst_fillings (place : Nat) (fields : List Field) :
    (fillings s converters record place fields).map Prod.fst = fields := by
  induction fields generalizing place with
  | nil => rfl
  | cons f rest ih => rw [fillings, List.map_cons, ih]

/-- **Fields fail as the first of them that cannot be read.** -/
theorem fillAll_eq_error_iff {fields : List Field} {e : Entity} {error : MappingError} :
    fillAll nested vacant s converters record place fields e = .error error ↔
      FailsFirst nested s converters record place fields error := by
  unfold FailsFirst
  constructor
  · intro h
    obtain ⟨steps, step, rest, c, hsplit, hsteps, hstep⟩ := foldlM_eq_error_iff.mp h
    have hfields : (fillings s converters record place fields).map Prod.fst = fields :=
      map_fst_fillings place fields
    rw [hsplit, List.map_append, List.map_cons] at hfields
    rw [← hfields, fillings_append, fillings] at hsplit
    have hlength : (fillings s converters record place (steps.map Prod.fst)).length
        = steps.length := by
      rw [← List.length_map Prod.fst, map_fst_fillings, List.length_map]
    obtain ⟨hbefore, hafter⟩ := List.append_inj hsplit hlength
    obtain ⟨hf, -⟩ := List.cons.inj hafter
    refine ⟨steps.map Prod.fst, step.1, rest.map Prod.fst, hfields.symm, ?_, ?_⟩
    · exact exists_fillAll_iff.mp ⟨c, by rw [fillAll, hbefore]; exact hsteps⟩
    · rw [← hf] at hstep
      exact fill_eq_error_iff.mp hstep
  · rintro ⟨before, f, after, rfl, hbefore, hf⟩
    obtain ⟨c, hc⟩ := exists_fillAll_iff (e := e).mpr hbefore
    unfold fillAll
    rw [fillings_append, fillings]
    exact foldlM_eq_error_iff.mpr ⟨_, _, _, c, rfl, hc, hf.fill_eq c⟩

/-- **A record fails to be read as its first field that cannot be does.** -/
theorem ofRecord_eq_error_iff {catalog : Catalog} {type : TypeName} {error : MappingError}
    (hs : catalog.schema? type = some s) (hblank : record.isBlank = false) :
    Entity.ofRecord catalog converters type record = .error error ↔
      FailsFirst (readWithin catalog converters (depthLimit - 1)) s converters record 1 s.fields
        error := by
  rw [ofRecord_mapped hs hblank, fillAll_eq_error_iff]

end Mapping

end TypedRecords
