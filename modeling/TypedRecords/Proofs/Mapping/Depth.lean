/-
How deep readings nest.

A link that is fetched later is filled from a placeholder, and a joined one from what a record has
under an alias.  Neither goes far.  A name that was taken from under an alias has no point left in
it, so what was extracted once gives nothing when it is extracted again; and a placeholder has no
lookup among its attributes, so it leads to no other placeholder.  The longest way down from a record
is an extracted record, a placeholder, and what is extracted from that twice: five levels, the record
itself included.  So the bound on the depth is never met, and a nested reading is just a reading.
-/
import TypedRecords.Proofs.Mapping.Reading
import TypedRecords.Proofs.Record

namespace TypedRecords

/-- No converter makes a lookup out of anything else. -/
def Converters.MakesNoLookups (converters : Converters) : Prop :=
  ∀ s r converted, converters.apply s = .ok (.reference r, converted) → ∃ r', s = .reference r'

theorem Converters.makesNoLookups_empty : Converters.empty.MakesNoLookups := by
  intro s r converted h
  rw [apply_empty] at h
  cases h
  exact ⟨r, rfl⟩

/-! ### Records that lead nowhere -/

namespace Record

variable {record : Record}

/-- No attribute is a lookup. -/
def NoLookups (record : Record) : Prop := ∀ name r, record.get? name ≠ some (.reference r)

/-- No attribute's name has a point in it. -/
def Undotted (record : Record) : Prop :=
  ∀ name, (record.get? name).isSome = true → '.' ∉ name.toList

theorem point_notMem_segment (path : String) : '.' ∉ (segment path).toList := by
  unfold segment lastSegment
  rw [String.toList_ofList, List.mem_reverse]
  intro h
  have hall := List.all_eq_true.mp (List.all_takeWhile ..) _ h
  exact of_decide_eq_true hall rfl

theorem undotted_extract (record : Record) (child : String) (place : Nat) :
    (record.extract child place).Undotted := by
  intro name h
  obtain ⟨value, hvalue⟩ := Option.isSome_iff_exists.mp h
  obtain ⟨path, -, rfl⟩ := (record.flattenedUnder_extract child place).only name value hvalue
  exact point_notMem_segment path

theorem NoLookups.extract (h : record.NoLookups) (child : String) (place : Nat) :
    (record.extract child place).NoLookups := by
  intro name r hget
  obtain ⟨path, hwhole, -⟩ := (record.flattenedUnder_extract child place).only name _ hget
  exact h _ r hwhole

/-- A record without an identity and without attributes is blank. -/
theorem isBlank_of_absent (hid : record.id.isNil = true) (h : ∀ name, record.get? name = none) :
    record.isBlank = true := by
  have hentries : record.attributes.entries = [] := by
    refine List.eq_nil_iff_forall_not_mem.mpr fun ⟨name, value⟩ hmem => ?_
    cases (h name).symm.trans (record.attributes.mem_entries_iff.mp hmem)
  simp [isBlank, hid, Attributes.size, hentries]

/-- Nothing is under an alias in a record whose names have no points. -/
theorem Undotted.isBlank_extract (h : record.Undotted) (child : String) (place : Nat) :
    (record.extract child place).isBlank = true := by
  refine isBlank_of_absent rfl fun name => ?_
  by_contra hsome
  obtain ⟨value, hvalue⟩ := Option.ne_none_iff_exists'.mp hsome
  obtain ⟨path, hwhole, -⟩ := (record.flattenedUnder_extract child place).only name value hvalue
  refine h _ (by rw [hwhole]; rfl) ?_
  simp

end Record

namespace Mapping

variable {nested nested' : Reader} {vacant : Vacancy} {catalog : Catalog}
  {converters : Converters} {s : Schema} {record child : Record} {f : Field} {place n : Nat}

theorem noLookups_placeholder (lookup : Reference) : (placeholder lookup).NoLookups := by
  intro name r hget
  unfold placeholder at hget
  rw [Record.get?_set] at hget
  split at hget
  · cases hget
  · cases hget

/-! ### What links are filled from -/

/-- Without converters that make them, a lookup that comes in was one before. -/
theorem reference_of_incoming (hconv : converters.MakesNoLookups) {raw : Value} {r : Reference}
    (h : incoming converters f raw = .ok (.reference r)) : ∃ r', raw = .reference r' := by
  obtain ⟨⟨value, converted⟩, happly, h⟩ := bind_eq_ok.mp h
  have hvalue : value = .reference r := by
    have h : (if f.isChoice then value.toChoice else .ok value) = .ok (.reference r) := h
    by_cases hchoice : f.isChoice = true
    · rw [if_pos hchoice] at h
      by_cases hnull : value = .null
      · subst hnull
        cases h
      · obtain ⟨c, hc⟩ := Scalar.choice_of_toChoice hnull h
        cases hc
    · rw [if_neg hchoice] at h
      cases h
      rfl
  subst hvalue
  obtain ⟨r', hr'⟩ := hconv _ _ _ happly
  refine ⟨r', ?_⟩
  rw [← Scalar.toValue_ofValue raw, hr']
  rfl

/-- A link is filled from a placeholder for a lookup, or from what is under an alias. -/
theorem source_cases (hconv : converters.MakesNoLookups) {slot : String} {linked : TypeName}
    {source : Linked}
    (h : filling s converters record place f = .ok (.link slot linked (some source))) :
    (∃ r r', record.get? f.wire = some (.reference r) ∧ source.record = placeholder r') ∨
      ∃ child place, source.record = record.extract child place := by
  obtain ⟨raw, value, hraw, hvalue, -, hcontent⟩ := link_of_filling h
  rcases content_cases hcontent with ⟨-, r', rfl, hsource⟩ | ⟨-, link, -, hsource⟩
  · obtain ⟨r, rfl⟩ := reference_of_incoming hconv hvalue
    exact .inl ⟨r, r', hraw, hsource⟩
  · exact .inr ⟨link.childEntity, place, hsource⟩

/-- A record that is read when another one is read as some type. -/
def Feeds (catalog : Catalog) (converters : Converters) (record child : Record) : Prop :=
  record.isBlank = false ∧ ∃ type s f place slot linked source,
    catalog.schema? type = some s ∧ f ∈ s.fields ∧
    filling s converters record place f = .ok (.link slot linked (some source)) ∧
    child = source.record

theorem Feeds.cases (hconv : converters.MakesNoLookups)
    (h : Feeds catalog converters record child) :
    (¬record.NoLookups ∧ ∃ r, child = placeholder r) ∨
      ∃ name place, child = record.extract name place := by
  obtain ⟨-, type, s, f, place, slot, linked, source, -, -, hfilling, rfl⟩ := h
  rcases source_cases hconv hfilling with ⟨r, r', hget, hsource⟩ | hsource
  · exact .inl ⟨fun hnone => hnone _ r hget, r', hsource⟩
  · exact .inr hsource

/-! ### Levels -/

/-- The records that a record leads to nest at most so many levels, the record itself included. -/
inductive NestsWithin (catalog : Catalog) (converters : Converters) : Nat → Record → Prop
  | intro {n : Nat} {record : Record}
      (h : ∀ child, Feeds catalog converters record child →
        NestsWithin catalog converters n child) :
      NestsWithin catalog converters (n + 1) record

theorem NestsWithin.succ (h : NestsWithin catalog converters n record) :
    NestsWithin catalog converters (n + 1) record := by
  induction h with
  | intro _ ih => exact .intro ih

theorem NestsWithin.mono {m : Nat} (h : NestsWithin catalog converters n record) (hle : n ≤ m) :
    NestsWithin catalog converters m record := by
  induction hle with
  | refl => exact h
  | step _ ih => exact ih.succ

theorem nestsWithin_blank (hblank : record.isBlank = true) :
    NestsWithin catalog converters 1 record :=
  .intro fun _ hfeeds => absurd (hblank.symm.trans hfeeds.1) nofun

section

variable (catalog) (hconv : converters.MakesNoLookups)

include hconv

/-- What was extracted from a record without lookups. -/
theorem nestsWithin_two (hundotted : record.Undotted) (hnone : record.NoLookups) :
    NestsWithin catalog converters 2 record := by
  refine .intro fun child hfeeds => ?_
  rcases hfeeds.cases hconv with ⟨hsome, -⟩ | ⟨name, place, rfl⟩
  · exact absurd hnone hsome
  · exact nestsWithin_blank (hundotted.isBlank_extract name place)

theorem nestsWithin_placeholder (r : Reference) :
    NestsWithin catalog converters 3 (placeholder r) := by
  have hnone := noLookups_placeholder r
  refine .intro fun child hfeeds => ?_
  rcases hfeeds.cases hconv with ⟨hsome, -⟩ | ⟨name, place, rfl⟩
  · exact absurd hnone hsome
  · exact nestsWithin_two catalog hconv (Record.undotted_extract _ _ _) (hnone.extract name place)

/-- What was extracted from any record. -/
theorem nestsWithin_four (hundotted : record.Undotted) :
    NestsWithin catalog converters 4 record := by
  refine .intro fun child hfeeds => ?_
  rcases hfeeds.cases hconv with ⟨-, r, rfl⟩ | ⟨name, place, rfl⟩
  · exact nestsWithin_placeholder catalog hconv r
  · exact (nestsWithin_blank (hundotted.isBlank_extract name place)).mono (by decide)

/-- **The records that a record leads to nest five levels at most.** -/
theorem nestsWithin_five (record : Record) : NestsWithin catalog converters 5 record := by
  refine .intro fun child hfeeds => ?_
  rcases hfeeds.cases hconv with ⟨-, r, rfl⟩ | ⟨name, place, rfl⟩
  · exact (nestsWithin_placeholder catalog hconv r).succ
  · exact nestsWithin_four catalog hconv (Record.undotted_extract _ _ _)

end

/-! ### The bound is never met -/

/-- A step is the same with nested readings that agree on what its link is filled from. -/
theorem fill_congr {step : Field × Except MappingError Filling} {e : Entity}
    (h : ∀ slot linked source, step.2 = .ok (.link slot linked (some source)) →
      nested linked source.record = nested' linked source.record) :
    fill nested vacant s e step = fill nested' vacant s e step := by
  unfold fill
  cases hfilling : step.2 with
  | error error => rfl
  | ok filling =>
      cases filling with
      | untouched => rfl
      | scalar slot value => rfl
      | link slot linked source =>
          cases source with
          | none => rfl
          | some source =>
              show (nested linked source.record >>= fun child =>
                  pure (e.setLink slot (some (settle source child))))
                = (nested' linked source.record >>= fun child =>
                  pure (e.setLink slot (some (settle source child))))
              rw [h slot linked source hfilling]

/-- A reading is the same with nested readings that agree on what the record leads to. -/
theorem readWith_congr {type : TypeName} (h : ∀ linked child,
    Feeds catalog converters record child → nested linked child = nested' linked child) :
    readWith nested catalog converters type record
      = readWith nested' catalog converters type record := by
  by_cases hblank : record.isBlank = true
  · rw [readWith_blank hblank, readWith_blank hblank]
  · have hblank : record.isBlank = false := by simpa using hblank
    cases hs : catalog.schema? type with
    | none => simp only [readWith, hblank, hs]
    | some s =>
        rw [readWith_mapped hs hblank, readWith_mapped hs hblank]
        refine foldlM_congr fun step hstep e => fill_congr fun slot linked source hsource => ?_
        obtain ⟨f, hf, place, rfl⟩ := mem_fillings hstep
        exact h linked _ ⟨hblank, type, s, f, place, slot, linked, source, hs, hf, hsource, rfl⟩

/-- As many levels as a record has are as good as any more. -/
theorem NestsWithin.readWithin_eq (h : NestsWithin catalog converters n record) :
    ∀ {depth : Nat}, n ≤ depth → ∀ type : TypeName,
      readWithin catalog converters depth type record
        = readWithin catalog converters n type record := by
  induction h with
  | @intro n record _ ih =>
      intro depth hle type
      obtain ⟨depth, rfl⟩ : ∃ d, depth = d + 1 := ⟨depth - 1, by omega⟩
      exact readWith_congr fun linked child hfeeds => ih child hfeeds (by omega) linked

/-- **A nested reading is a reading**, whether it succeeds or fails. -/
theorem readWithin_eq_ofRecord (hconv : converters.MakesNoLookups) {depth : Nat}
    (hdepth : 5 ≤ depth) (type : TypeName) (record : Record) :
    readWithin catalog converters depth type record
      = Entity.ofRecord catalog converters type record := by
  have h := nestsWithin_five catalog hconv record
  exact (h.readWithin_eq hdepth type).trans (h.readWithin_eq (by decide) type).symm

/-- Reading a record reads the linked records in the same way. -/
theorem ofRecord_eq_fillAll (hconv : converters.MakesNoLookups) {type : TypeName}
    (hs : catalog.schema? type = some s) (hblank : record.isBlank = false) :
    Entity.ofRecord catalog converters type record
      = fillAll (Entity.ofRecord catalog converters) (catalog.vacant type) s converters record 1
          s.fields (started catalog type s.stateField s.statusField record) := by
  have hnested : readWithin catalog converters (depthLimit - 1)
      = Entity.ofRecord catalog converters := by
    funext linked child
    exact readWithin_eq_ofRecord hconv (by decide) linked child
  rw [ofRecord_mapped hs hblank, hnested]

end Mapping

end TypedRecords
