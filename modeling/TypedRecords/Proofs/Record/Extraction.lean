/-
What extraction keeps of a joined record, and when it hangs on the order of the attributes.

A record does not say in which order its attributes come, so `Reorders` takes two records for one
when they list the same attributes.  Extraction files each attribute of a join under the last segment
of its path, and of several that end alike the one that comes last stays.  Each of them comes last in
some order.  So an attribute's value is safe exactly when no other one that ends alike has another
value, the whole result is one exactly when all that end alike agree, and each attribute has an entry
of its own exactly when no two end alike: with fewer segments than paths there are not entries enough,
whichever way they are dealt out.
-/
import TypedRecords.Proofs.Record
import Mathlib.Data.Finset.Preimage
import Mathlib.Data.List.Perm.Basic

namespace TypedRecords

/-! ### Bags in another order -/

theorem putEntry_of_absent {name : String} {entries : List (String × Value)}
    (h : entries.lookup name = none) (value : Value) :
    putEntry name value entries = entries ++ [(name, value)] := by
  induction entries with
  | nil => rfl
  | cons entry rest ih =>
      obtain ⟨key, held⟩ := entry
      by_cases hkey : name = key
      · simp [hkey] at h
      · rw [List.lookup_cons, beq_false_of_ne hkey] at h
        rw [putEntry, if_neg (Ne.symm hkey), ih h, List.cons_append]

namespace Attributes

theorem nodup_entries (attributes : Attributes) : attributes.entries.Nodup :=
  .of_map Prod.fst attributes.nodup

/-- Two bags hold the same pairs when they give the same value for each name. -/
theorem perm_entries_iff {a b : Attributes} :
    a.entries.Perm b.entries ↔ ∀ name, a.get? name = b.get? name := by
  rw [List.perm_ext_iff_of_nodup a.nodup_entries b.nodup_entries]
  constructor
  · intro h name
    refine Option.ext fun value => ?_
    rw [← mem_entries_iff, ← mem_entries_iff, h]
  · rintro h ⟨name, value⟩
    rw [mem_entries_iff, mem_entries_iff, h]

theorem get?_erase (attributes : Attributes) (name other : String) :
    (attributes.erase name).get? other = if other = name then none else attributes.get? other := by
  refine Option.ext fun value => ?_
  rw [← mem_entries_iff]
  by_cases h : other = name
  · simp [erase, h]
  · simp [erase, h, mem_entries_iff]

/-- A name that was dropped and set again comes last. -/
theorem entries_insert_erase (attributes : Attributes) (name : String) (value : Value) :
    ((attributes.erase name).insert name value).entries
      = (attributes.erase name).entries ++ [(name, value)] :=
  putEntry_of_absent ((attributes.get?_erase name name).trans (if_pos rfl)) value

end Attributes

namespace Record

variable {record r r' : Record} {child joinName path : String} {place : Nat} {value : Value}

/-! ### Records in another order -/

/-- Two records are one but for the order in which they list their attributes. -/
structure Reorders (a b : Record) : Prop where
  entity : a.entity = b.entity
  id : a.id = b.id
  entries : a.attributes.entries.Perm b.attributes.entries

theorem Reorders.get?_eq (h : r.Reorders record) (name : String) :
    r.get? name = record.get? name :=
  Attributes.perm_entries_iff.mp h.entries name

/-- What has a join's attributes in one order has them in any. -/
theorem FlattenedUnder.of_reorders {part : Record} (h : r.Reorders record)
    (hflat : r.FlattenedUnder joinName part) : record.FlattenedUnder joinName part := by
  constructor
  · intro name value hpart
    obtain ⟨path, hwhole, hname⟩ := hflat.only name value hpart
    exact ⟨path, (h.get?_eq _).symm.trans hwhole, hname⟩
  · intro path value hwhole
    exact hflat.every path value ((h.get?_eq _).trans hwhole)

/-- The record with one attribute moved to the end. -/
def endingWith (record : Record) (name : String) (value : Value) : Record :=
  (record.erase name).set name value

theorem reorders_endingWith {name : String} (h : record.get? name = some value) :
    (record.endingWith name value).Reorders record := by
  refine ⟨rfl, rfl, Attributes.perm_entries_iff.mpr fun other => ?_⟩
  show ((record.attributes.erase name).insert name value).get? other = record.get? other
  rw [Attributes.get?_insert, Attributes.get?_erase]
  by_cases hother : other = name
  · rw [if_pos hother, hother, h]
  · rw [if_neg hother, if_neg hother]
    rfl

/-! ### What ends alike -/

/-- Attributes under an alias whose paths end alike have one value. -/
def AgreesUnder (joinName : String) (record : Record) : Prop :=
  ∀ p q v w, record.get? (joinName ++ "." ++ p) = some v →
    record.get? (joinName ++ "." ++ q) = some w → segment p = segment q → v = w

/-- No two attributes under an alias have paths that end alike. -/
def ApartUnder (joinName : String) (record : Record) : Prop :=
  ∀ p q v w, record.get? (joinName ++ "." ++ p) = some v →
    record.get? (joinName ++ "." ++ q) = some w → segment p = segment q → p = q

/-- Each attribute that a record has under an alias has one of its own in another record, with its
value. -/
def OwnUnder (joinName : String) (whole part : Record) : Prop :=
  ∃ own : String → String,
    (∀ path value, whole.get? (joinName ++ "." ++ path) = some value →
      part.get? (own path) = some value) ∧
    ∀ p q v w, whole.get? (joinName ++ "." ++ p) = some v →
      whole.get? (joinName ++ "." ++ q) = some w → own p = own q → p = q

/-! ### The attribute that comes last stays -/

/-- Of the attributes of a join that end alike, the last one gives the value. -/
theorem get?_extract_endingWith (record : Record) (child : String) (place : Nat) (path : String)
    (value : Value) :
    ((record.endingWith (joinAlias child place ++ "." ++ path) value).extract child place).get?
      (segment path) = some value := by
  have hjoined : joinedName? (joinAlias child place) (joinAlias child place ++ "." ++ path)
      = some (segment path) := joinedName?_eq_some.mpr ⟨path, rfl, rfl⟩
  unfold extract endingWith
  show (Attributes.ofList ((((record.attributes.erase _).insert _ value).entries).filterMap _)).get?
    (segment path) = some value
  rw [Attributes.entries_insert_erase, List.filterMap_append, Attributes.get?_ofList,
    List.reverse_append]
  simp [hjoined]

/-- **An attribute's value survives in every order when all that end alike agree with it**, and only
then. -/
theorem get?_extract_iff (h : record.get? (joinAlias child place ++ "." ++ path) = some value) :
    (∀ r : Record, r.Reorders record → (r.extract child place).get? (segment path) = some value) ↔
      ∀ other w, record.get? (joinAlias child place ++ "." ++ other) = some w →
        segment other = segment path → w = value := by
  constructor
  · intro hall other w hother hsegment
    have hlast := hall _ (reorders_endingWith hother)
    rw [← hsegment, get?_extract_endingWith] at hlast
    exact Option.some.inj hlast
  · intro hagree r hr
    have hflat := (r.flattenedUnder_extract child place).of_reorders hr
    obtain ⟨w, hw⟩ := Option.isSome_iff_exists.mp (hflat.every path value h)
    obtain ⟨other, hother, hsegment⟩ := hflat.only _ w hw
    rw [hw, hagree other w hother hsegment.symm]

/-- The order does not show when attributes that end alike agree, and only then. -/
theorem reorders_extract_iff (record : Record) (child : String) (place : Nat) :
    (∀ r r' : Record, r.Reorders record → r'.Reorders record →
        (r.extract child place).Reorders (r'.extract child place)) ↔
      record.AgreesUnder (joinAlias child place) := by
  constructor
  · intro hone p q v w hp hq hsegment
    have hsame := (hone _ _ (reorders_endingWith hp) (reorders_endingWith hq)).get?_eq (segment p)
    rw [get?_extract_endingWith, hsegment, get?_extract_endingWith] at hsame
    exact Option.some.inj hsame
  · intro hagree r r' hr hr'
    -- a value of one extraction is an attribute's, and that attribute's value is in the other too
    have hkeeps : ∀ a b : Record, a.Reorders record → b.Reorders record → ∀ name value,
        (a.extract child place).get? name = some value →
          (b.extract child place).get? name = some value := by
      intro a b ha hb name value hvalue
      have hflat := (a.flattenedUnder_extract child place).of_reorders ha
      obtain ⟨path, hpath, rfl⟩ := hflat.only name value hvalue
      exact (get?_extract_iff hpath).mpr
        (fun other w hother hsegment => hagree other path w value hother hpath hsegment) b hb
    refine ⟨rfl, rfl, Attributes.perm_entries_iff.mpr fun name => Option.ext fun value => ?_⟩
    exact ⟨hkeeps r r' hr hr' name value, hkeeps r' r hr' hr name value⟩

/-! ### An entry for each attribute -/

theorem under_injective (joinName : String) :
    Function.Injective fun path => joinName ++ "." ++ path :=
  fun _ _ h => (String.append_right_inj _).mp h

/-- The paths that a record has attributes for under an alias. -/
noncomputable def pathsUnder (joinName : String) (record : Record) : Finset String :=
  (record.attributes.entries.map Prod.fst).toFinset.preimage (fun path => joinName ++ "." ++ path)
    (under_injective joinName).injOn

theorem mem_pathsUnder :
    path ∈ record.pathsUnder joinName ↔
      ∃ value, record.get? (joinName ++ "." ++ path) = some value := by
  unfold pathsUnder
  rw [Finset.mem_preimage, List.mem_toFinset, List.mem_map]
  constructor
  · rintro ⟨⟨name, value⟩, hmem, rfl⟩
    exact ⟨value, record.attributes.mem_entries_iff.mp hmem⟩
  · rintro ⟨value, hvalue⟩
    exact ⟨(_, value), record.attributes.mem_entries_iff.mpr hvalue, rfl⟩

/-- What is flattened under an alias has entries enough for all attributes when no two end alike, and
only then. -/
theorem FlattenedUnder.own_iff {part : Record} (hflat : record.FlattenedUnder joinName part) :
    record.OwnUnder joinName part ↔ record.ApartUnder joinName := by
  constructor
  · rintro ⟨own, hvalue, hinj⟩
    -- the paths go one to one into the segments, so there are no fewer segments than paths
    have hmaps : ∀ p ∈ record.pathsUnder joinName,
        own p ∈ (record.pathsUnder joinName).image segment := by
      intro p hp
      obtain ⟨v, hv⟩ := mem_pathsUnder.mp hp
      obtain ⟨q, hq, hsegment⟩ := hflat.only _ v (hvalue p v hv)
      exact Finset.mem_image.mpr ⟨q, mem_pathsUnder.mpr ⟨v, hq⟩, hsegment.symm⟩
    have hone : Set.InjOn own (record.pathsUnder joinName) := by
      intro p hp q hq hown
      obtain ⟨v, hv⟩ := mem_pathsUnder.mp hp
      obtain ⟨w, hw⟩ := mem_pathsUnder.mp hq
      exact hinj p q v w hv hw hown
    have hcard : ((record.pathsUnder joinName).image segment).card
        = (record.pathsUnder joinName).card :=
      Finset.card_image_le.antisymm (Finset.card_le_card_of_injOn own hmaps hone)
    intro p q v w hp hq hsegment
    exact Finset.card_image_iff.mp hcard (mem_pathsUnder.mpr ⟨v, hp⟩)
      (mem_pathsUnder.mpr ⟨w, hq⟩) hsegment
  · intro hapart
    refine ⟨segment, ?_, hapart⟩
    intro path value h
    obtain ⟨w, hw⟩ := Option.isSome_iff_exists.mp (hflat.every path value h)
    obtain ⟨other, hother, hsegment⟩ := hflat.only _ w hw
    have hpath : path = other := hapart path other value w h hother hsegment
    rw [hw, ← hother, ← hpath, h]

/--
**What extraction keeps of a joined record.**

In whatever order the attributes come, the extracted record has attributes of the join only, each
under its last segment, and a value for each of them.  An attribute's own value is there in every
order exactly when those that end alike have that value too, and the extracted record is one and the
same exactly when all that end alike agree.  Each attribute has an entry of its own, in one order and
in all, exactly when no two end alike.
-/
theorem extract_keeps (record : Record) (child : String) (place : Nat) :
    (∀ r : Record, r.Reorders record →
      record.FlattenedUnder (joinAlias child place) (r.extract child place) ∧
      (record.OwnUnder (joinAlias child place) (r.extract child place) ↔
        record.ApartUnder (joinAlias child place))) ∧
    (∀ path value, record.get? (joinAlias child place ++ "." ++ path) = some value →
      ((∀ r : Record, r.Reorders record →
          (r.extract child place).get? (segment path) = some value) ↔
        ∀ other w, record.get? (joinAlias child place ++ "." ++ other) = some w →
          segment other = segment path → w = value)) ∧
    ((∀ r r' : Record, r.Reorders record → r'.Reorders record →
        (r.extract child place).Reorders (r'.extract child place)) ↔
      record.AgreesUnder (joinAlias child place)) := by
  refine ⟨fun r hr => ?_, fun path value h => get?_extract_iff h, reorders_extract_iff ..⟩
  have hflat := (r.flattenedUnder_extract child place).of_reorders hr
  exact ⟨hflat, hflat.own_iff⟩

/-! ### A contact with two cities -/

/-- An account whose first contact has a city at home and a city at work. -/
def commuting (home work : String) : Record :=
  (({ entity := "account", id := .nil } : Record).set "contact1.home.city"
    (.string home)).set "contact1.work.city" (.string work)

theorem get?_commuting (home work : String) :
    (commuting home work).get? (joinAlias "contact" 1 ++ "." ++ "home.city")
        = some (.string home) ∧
      (commuting home work).get? (joinAlias "contact" 1 ++ "." ++ "work.city")
        = some (.string work) := by
  have hhome : joinAlias "contact" 1 ++ "." ++ "home.city" = "contact1.home.city" := by decide +kernel
  have hwork : joinAlias "contact" 1 ++ "." ++ "work.city" = "contact1.work.city" := by decide +kernel
  rw [hhome, hwork]
  constructor
  · simp [commuting, get?_set]
  · simp [commuting, get?_set]

/-- With one city at both places, an order that puts the home last keeps the city at work too. -/
theorem extract_keeps_cities :
    ∃ r : Record, r.Reorders (commuting "Oslo" "Oslo") ∧
      (commuting "Oslo" "Oslo").FlattenedUnder (joinAlias "contact" 1) (r.extract "contact" 1) ∧
      (commuting "Oslo" "Oslo").get? (joinAlias "contact" 1 ++ "." ++ "work.city")
        = some (.string "Oslo") ∧
      (r.extract "contact" 1).get? (segment "work.city") = some (.string "Oslo") := by
  obtain ⟨hhome, hwork⟩ := get?_commuting "Oslo" "Oslo"
  have hcities : ∀ name w, (commuting "Oslo" "Oslo").get? name = some w → w = .string "Oslo" := by
    intro name w h
    simp only [commuting, get?_set] at h
    split at h
    · exact (Option.some.inj h).symm
    · split at h
      · exact (Option.some.inj h).symm
      · cases h
  obtain ⟨horders, hvalues, -⟩ := extract_keeps (commuting "Oslo" "Oslo") "contact" 1
  have hr := reorders_endingWith hhome
  exact ⟨_, hr, (horders _ hr).1, hwork,
    (hvalues _ _ hwork).mpr (fun other w hother _ => hcities _ w hother) _ hr⟩

theorem segment_cities : segment "home.city" = segment "work.city" := by decide +kernel

/-- Two attributes of one contact share an entry even when they agree, and when they do not, the order
says which of them the contact has. -/
theorem cities_share_entry :
    ¬(commuting "Oslo" "Oslo").OwnUnder (joinAlias "contact" 1)
        ((commuting "Oslo" "Oslo").extract "contact" 1) ∧
      ∃ r r' : Record, r.Reorders (commuting "Oslo" "Bergen") ∧
        r'.Reorders (commuting "Oslo" "Bergen") ∧
        ¬(r.extract "contact" 1).Reorders (r'.extract "contact" 1) := by
  constructor
  · intro hown
    obtain ⟨hhome, hwork⟩ := get?_commuting "Oslo" "Oslo"
    have hapart := (flattenedUnder_extract _ "contact" 1).own_iff.mp hown
    exact absurd (hapart _ _ _ _ hhome hwork segment_cities) (by decide)
  · obtain ⟨hhome, hwork⟩ := get?_commuting "Oslo" "Bergen"
    refine ⟨_, _, reorders_endingWith hhome, reorders_endingWith hwork, fun hsame => ?_⟩
    have hcity := hsame.get?_eq (segment "home.city")
    rw [get?_extract_endingWith, segment_cities, get?_extract_endingWith] at hcity
    exact absurd hcity (by decide)

end Record

end TypedRecords
