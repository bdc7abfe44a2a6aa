/-
How far down a reading calls.

Reading a record reads the records that its links are filled from, and reading those reads others in
turn.  Types may link to themselves and to each other, so nothing in the types bounds such a chain of
calls.  The records do: they nest five levels at most, and each call goes down one level.  So the
recursion needs no bound of its own, and reading is the one function that reads linked records as it
reads any other.

A converter that makes lookups out of other values takes the bound away: a record that leads to
itself is read without end.
-/
import TypedRecords.Proofs.Mapping.Depth
import TypedRecords.Proofs.Mapping.Failure
import Mathlib.Data.List.Chain

namespace TypedRecords

namespace Mapping

variable {nested : Reader} {vacant : Vacancy} {catalog : Catalog} {converters : Converters}
  {s : Schema} {record : Record} {n : Nat}

/-! ### Calls -/

/-- Reading one record as a type reads another one as a type in turn. -/
def Calls (catalog : Catalog) (converters : Converters) (caller callee : TypeName × Record) :
    Prop :=
  callee ∈ callsWith (Entity.ofRecord catalog converters) catalog converters caller.1 caller.2

instance (caller callee : TypeName × Record) : Decidable (Calls catalog converters caller callee) :=
  inferInstanceAs (Decidable (_ ∈ _))

/-- Filling members reads the records that links are filled from. -/
theorem source_of_mem_calls {callee : TypeName × Record} :
    ∀ {steps : List (Field × Except MappingError Filling)} {e : Entity},
      callee ∈ calls nested vacant s e steps →
        ∃ step ∈ steps, ∃ slot source,
          step.2 = .ok (.link slot callee.1 (some source)) ∧ callee.2 = source.record := by
  intro steps
  induction steps with
  | nil =>
      intro e h
      cases h
  | cons step rest ih =>
      intro e h
      rw [calls] at h
      rcases List.mem_append.mp h with hown | hrest
      · split at hown
        · rename_i slot linked source hstep
          rw [List.mem_singleton.mp hown]
          exact ⟨step, by simp, slot, source, hstep, rfl⟩
        · cases hown
      · split at hrest
        · obtain ⟨other, hother, hsource⟩ := ih hrest
          exact ⟨other, by simp [hother], hsource⟩
        · cases hrest

/-- A record that is read in turn is what one of the caller's links is filled from. -/
theorem Calls.filling {type : TypeName} {callee : TypeName × Record}
    (h : Calls catalog converters (type, record) callee) :
    record.isBlank = false ∧ ∃ s before f after slot source, catalog.schema? type = some s ∧
      s.fields = before ++ f :: after ∧
      filling s converters record (1 + met record before) f
        = .ok (.link slot callee.1 (some source)) ∧
      callee.2 = source.record := by
  unfold Calls callsWith at h
  by_cases hblank : record.isBlank = true
  · rw [if_pos hblank] at h
    cases h
  · rw [if_neg hblank] at h
    cases hs : catalog.schema? type with
    | none =>
        rw [hs] at h
        cases h
    | some s =>
        simp only [hs] at h
        obtain ⟨step, hstep, slot, source, hsource, hrecord⟩ := source_of_mem_calls h
        obtain ⟨before, f, after, hsplit, rfl⟩ := exists_split_of_mem_fillings hstep
        exact ⟨by simpa using hblank, s, before, f, after, slot, source, rfl, hsplit, hsource,
          hrecord⟩

/-- A record that is read in turn is one that the caller's record leads to. -/
theorem Calls.feeds {caller callee : TypeName × Record}
    (h : Calls catalog converters caller callee) :
    Feeds catalog converters caller.2 callee.2 := by
  obtain ⟨hblank, s, before, f, after, slot, source, hs, hsplit, hsource, hrecord⟩ := h.filling
  exact ⟨hblank, caller.1, s, f, _, slot, callee.1, source, hs, by simp [hsplit], hsource, hrecord⟩

/-- A chain of calls is no longer than the levels that the first record's nest. -/
theorem NestsWithin.length_le (h : NestsWithin catalog converters n record) :
    ∀ {type : TypeName} {rest : List (TypeName × Record)},
      ((type, record) :: rest).IsChain (Calls catalog converters) → rest.length + 1 ≤ n := by
  induction h with
  | @intro n record _ ih =>
      intro type rest hchain
      cases rest with
      | nil => exact Nat.le_add_left 1 n
      | cons callee rest =>
          obtain ⟨hcall, hrest⟩ := List.isChain_cons_cons.mp hchain
          exact Nat.succ_le_succ (ih callee.2 hcall.feeds hrest)

/-! ### The end of the recursion -/

/-- No field fails for the depth of what it is filled from, if the nested readings do not. -/
theorem FailsFirst.not_tooDeep {place : Nat} {fields : List Field} {error : MappingError}
    (h : FailsFirst nested s converters record place fields error)
    (hnested : ∀ f ∈ fields, ∀ place slot linked source error,
      filling s converters record place f = .ok (.link slot linked (some source)) →
        nested linked source.record = .error error → error.problem ≠ .nestedTooDeep) :
    error.problem ≠ .nestedTooDeep := by
  obtain ⟨before, f, after, rfl, -, hfails⟩ := h
  cases hfails with
  | own hfault => cases hfault <;> exact nofun
  | linked hfilling hchild => exact hnested f (by simp) _ _ _ _ _ hfilling hchild

/-- A reading within the levels that a record has never meets the bound. -/
theorem NestsWithin.not_tooDeep (h : NestsWithin catalog converters n record) :
    ∀ {type : TypeName} {error : MappingError},
      readWithin catalog converters n type record = .error error →
        error.problem ≠ .nestedTooDeep := by
  induction h with
  | @intro n record _ ih =>
      intro type error h
      have h : readWith (readWithin catalog converters n) catalog converters type record
          = .error error := h
      by_cases hblank : record.isBlank = true
      · rw [readWith_blank hblank] at h
        cases h
      · have hblank : record.isBlank = false := by simpa using hblank
        cases hs : catalog.schema? type with
        | none =>
            rw [readWith_unmapped hs hblank] at h
            cases h
        | some s =>
            rw [readWith_mapped hs hblank] at h
            refine (fillAll_eq_error_iff.mp h).not_tooDeep ?_
            intro f hf place slot linked source error hfilling hchild
            exact ih _ ⟨hblank, type, s, f, place, slot, linked, source, hs, hf, hfilling, rfl⟩ hchild

section

variable (catalog) (hconv : converters.MakesNoLookups)

include hconv

/-- Reading reads linked records as it reads any other. -/
theorem ofRecord_eq_readWith :
    Entity.ofRecord catalog converters
      = readWith (Entity.ofRecord catalog converters) catalog converters := by
  have hnested : readWithin catalog converters (depthLimit - 1)
      = Entity.ofRecord catalog converters := by
    funext type record
    exact readWithin_eq_ofRecord hconv (by decide) type record
  exact congrArg (fun nested => readWith nested catalog converters) hnested

/-- No other reader does. -/
theorem eq_ofRecord_of_eq_readWith {read : Reader} (h : read = readWith read catalog converters) :
    read = Entity.ofRecord catalog converters := by
  have hlevels : ∀ n record, NestsWithin catalog converters n record → ∀ type,
      read type record = Entity.ofRecord catalog converters type record := by
    intro n record hnests
    induction hnests with
    | @intro n record _ ih =>
        intro type
        rw [h, ofRecord_eq_readWith catalog hconv]
        exact readWith_congr fun linked child hfeeds => ih child hfeeds linked
  funext type record
  exact hlevels 5 record (nestsWithin_five catalog hconv record) type

end

/--
**Reading ends, five calls deep.**

Whatever the types and however they link to each other, the recursion over linked records has one
solution, and no record's reading fails for its depth.  Any chain of calls, the first one included, is
at most five long.
-/
theorem reading_ends (catalog : Catalog) (hconv : converters.MakesNoLookups) :
    (∀ read : Reader, read = readWith read catalog converters ↔
      read = Entity.ofRecord catalog converters) ∧
    (∀ type record error, Entity.ofRecord catalog converters type record = .error error →
      error.problem ≠ .nestedTooDeep) ∧
    ∀ chain : List (TypeName × Record), chain.IsChain (Calls catalog converters) →
      chain.length ≤ 5 := by
  refine ⟨fun read => ⟨eq_ofRecord_of_eq_readWith catalog hconv, ?_⟩, ?_, ?_⟩
  · rintro rfl
    exact ofRecord_eq_readWith catalog hconv
  · intro type record error h
    rw [← readWithin_eq_ofRecord hconv (Nat.le_refl 5)] at h
    exact (nestsWithin_five catalog hconv record).not_tooDeep h
  · intro chain hchain
    cases chain with
    | nil => exact Nat.zero_le 5
    | cons call rest => exact (nestsWithin_five catalog hconv call.2).length_le hchain

/-! ### Folders that lead to folders -/

/-- A catalog of folders, which link to folders only: two joined and two that are fetched later. -/
def folders : Catalog where
  describe
    | "Folder" =>
        { names := ["folder"]
          declarations :=
            [.link "self" "Folder" "self" "folderid" [], .eager,
              .link "parent" "Folder" "parent" "parentid" [],
              .link "shelf" "Folder" "shelf" "folder1.parentid" [],
              .link "model" "Folder" "model" "modelid" [], .eager] }
    | _ => {}

/-- The lookup to a model folder, whose entity's name runs into an alias. -/
def model : Reference := ⟨"folder1.parent", ⟨15, by decide⟩⟩

/-- Converters that turn every lookup into the one to the model. -/
def modelling : Converters := Converters.empty.register .reference fun _ => .ok (.reference model)

theorem makesNoLookups_modelling : modelling.MakesNoLookups := by
  intro s r converted h
  cases s with
  | reference r' => exact ⟨r', rfl⟩
  | _ => cases h

/-- A folder with a parent, which has a model. -/
def filed : Record :=
  (({ entity := "folder", id := ⟨16, by decide⟩ } : Record).set "parentid"
    (.guid ⟨17, by decide⟩)).set "folder1.modelid" (.reference ⟨"folder", ⟨18, by decide⟩⟩)

/-- The longest way down from it: its parent, the parent's model, the shelf of the model, the shelf's
parent, of which nothing is known. -/
def wayDown : List (TypeName × Record) :=
  [("Folder", filed), ("Folder", filed.extract "folder" 1), ("Folder", placeholder model),
    ("Folder", (placeholder model).extract "folder" 1),
    ("Folder", ((placeholder model).extract "folder" 1).extract "folder" 1)]

theorem isChain_wayDown : wayDown.IsChain (Calls folders modelling) := by
  simp only [wayDown, List.isChain_cons_cons, List.isChain_singleton, and_true]
  decide +kernel

/-- Five calls are needed. -/
theorem reading_ends_folders :
    modelling.MakesNoLookups ∧ wayDown.IsChain (Calls folders modelling) ∧
      wayDown.length = 5 ∧ wayDown.length ≤ 5 := by
  have hconv := makesNoLookups_modelling
  obtain ⟨-, -, hchains⟩ := reading_ends folders hconv
  exact ⟨hconv, isChain_wayDown, rfl, hchains wayDown isChain_wayDown⟩

/-- Converters that take identities for lookups to folders. -/
def lookupMaking : Converters :=
  Converters.empty.register .identity fun
    | .identity id => .ok (.reference ⟨"folder", id⟩)
    | s => .ok s

/-- A folder of which only the lookup is known calls itself when identities become lookups. -/
theorem calls_self (id : Identity) :
    Calls folders lookupMaking ("Folder", placeholder ⟨"folder", id⟩)
      ("Folder", placeholder ⟨"folder", id⟩) := by
  have hid : (placeholder ⟨"folder", id⟩).get? "folderid" = some (.guid id) :=
    (Record.get?_set ..).trans (if_pos rfl)
  have hblank := Record.isBlank_of_get? (Option.isSome_of_eq_some hid)
  unfold Calls callsWith
  rw [if_neg (by simp [hblank])]
  -- the first field's own call is there, whatever becomes of the field
  exact List.mem_append_left _ (List.mem_singleton.mpr rfl)

/-- **With converters that make lookups there are chains of calls of any length.** -/
theorem exists_chain_of_lookups (n : Nat) :
    ∃ chain : List (TypeName × Record), chain.IsChain (Calls folders lookupMaking) ∧
      chain.length = n :=
  ⟨List.replicate n _, List.isChain_replicate_of_rel n (calls_self .nil), List.length_replicate⟩

end Mapping

end TypedRecords
