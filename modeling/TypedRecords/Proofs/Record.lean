/-
What records hold, their own and under an alias.

A bag of attributes has one value a name, the last it was given, and a blank record has none.  A
joined record travels in its parent's attributes, under an alias, a point and a path.
`FlattenedUnder` says that a record is what one alias has in another: each of its attributes comes
from a name under the alias, and each name under the alias gives it an attribute.  Extracting a join
gives just that, and an alias tells the places of joins of one entity apart.
-/
import TypedRecords.Record
import Mathlib.Data.List.Basic

namespace TypedRecords

/-! ### Blank records -/

theorem Identity.eq_nil_of_isNil {id : Identity} (h : id.isNil = true) : id = .nil := by
  obtain ⟨n, hn⟩ := id
  have hzero : n = 0 := of_decide_eq_true h
  subst hzero
  rfl

/-- A blank record has no attributes. -/
theorem Record.get?_of_isBlank {record : Record} (h : record.isBlank = true) (name : String) :
    record.get? name = none := by
  simp only [isBlank, Attributes.size, Bool.and_eq_true, decide_eq_true_eq,
    List.length_eq_zero_iff] at h
  show record.attributes.entries.lookup name = none
  rw [h.2]
  rfl

theorem Record.isBlank_of_get? {record : Record} {name : String}
    (h : (record.get? name).isSome = true) : record.isBlank = false := by
  cases hblank : record.isBlank with
  | false => rfl
  | true =>
      rw [get?_of_isBlank hblank] at h
      cases h

/-! ### Attribute bags -/

namespace Attributes

/-- A bag holds the pairs it is made of. -/
theorem mem_entries_iff (attributes : Attributes) {name : String} {value : Value} :
    (name, value) ∈ attributes.entries ↔ attributes.get? name = some value := by
  obtain ⟨entries, hnodup⟩ := attributes
  show (name, value) ∈ entries ↔ entries.lookup name = some value
  constructor
  · intro hmem
    obtain ⟨before, after, rfl⟩ := List.append_of_mem hmem
    rw [List.map_append, List.map_cons, List.nodup_append] at hnodup
    refine List.lookup_eq_some_iff.mpr ⟨before, after, rfl, ?_⟩
    intro entry hentry
    have hne := hnodup.2.2 entry.1 (List.mem_map_of_mem hentry) name (by simp)
    exact bne_iff_ne.mpr hne.symm
  · intro hlookup
    obtain ⟨before, after, rfl, -⟩ := List.lookup_eq_some_iff.mp hlookup
    simp

theorem get?_foldl_insert (name : String) : ∀ (pairs : List (String × Value))
    (attributes : Attributes),
    (pairs.foldl (fun attributes pair => attributes.insert pair.1 pair.2) attributes).get? name
      = (pairs.reverse.lookup name).or (attributes.get? name) := by
  intro pairs
  induction pairs with
  | nil => intro attributes; rfl
  | cons pair rest ih =>
      intro attributes
      obtain ⟨key, value⟩ := pair
      rw [List.foldl_cons, ih, get?_insert, List.reverse_cons, List.lookup_append,
        Option.or_assoc, List.lookup_cons]
      by_cases hname : name = key
      · simp [hname]
      · simp [hname, beq_false_of_ne hname]

/-- The last of the pairs with a name is the one that stays. -/
theorem get?_ofList (pairs : List (String × Value)) (name : String) :
    (ofList pairs).get? name = pairs.reverse.lookup name :=
  (get?_foldl_insert name pairs empty).trans (Option.or_none ..)

theorem mem_of_get?_ofList {pairs : List (String × Value)} {name : String} {value : Value}
    (h : (ofList pairs).get? name = some value) : (name, value) ∈ pairs := by
  rw [get?_ofList] at h
  obtain ⟨before, after, hpairs, -⟩ := List.lookup_eq_some_iff.mp h
  rw [← List.mem_reverse, hpairs]
  simp

theorem isSome_get?_ofList {pairs : List (String × Value)} {name : String} {value : Value}
    (h : (name, value) ∈ pairs) : ((ofList pairs).get? name).isSome = true := by
  rw [get?_ofList, List.lookup_isSome_iff]
  exact ⟨(name, value), List.mem_reverse.mpr h, by simp⟩

end Attributes

/-! ### Aliases -/

/-- An alias tells the place of its join. -/
theorem joinAlias_inj {child : String} {m n : Nat} :
    joinAlias child m = joinAlias child n ↔ m = n := by
  constructor
  · intro h
    have hrepr : Nat.repr m = Nat.repr n := (String.append_right_inj child).mp h
    have hdigits : Nat.toDigits 10 m = Nat.toDigits 10 n := by
      rw [← Nat.toList_repr, ← Nat.toList_repr, hrepr]
    rw [← Nat.ofDigitChars_toDigits (b := 10) (n := m) (by decide) (by decide), hdigits,
      Nat.ofDigitChars_toDigits (by decide) (by decide)]
  · rintro rfl
    rfl

namespace Record

/-- The attribute that a path leads to: what follows its last point. -/
def segment (path : String) : String := String.ofList (lastSegment path.toList)

/-- A name belongs to a join when it is the join's, a point and a path. -/
theorem joinedName?_eq_some {joinName key name : String} :
    joinedName? joinName key = some name ↔
      ∃ path, key = joinName ++ "." ++ path ∧ name = segment path := by
  unfold joinedName?
  rw [Option.map_eq_some_iff]
  constructor
  · rintro ⟨path, hprefix, rfl⟩
    rw [List.isPrefixOf?_eq_some_iff_append_eq] at hprefix
    refine ⟨String.ofList path, ?_, ?_⟩
    · apply String.ext
      rw [String.toList_append, String.toList_ofList, hprefix]
    · unfold segment
      rw [String.toList_ofList]
  · rintro ⟨path, rfl, rfl⟩
    refine ⟨path.toList, ?_, rfl⟩
    rw [List.isPrefixOf?_eq_some_iff_append_eq, String.toList_append (s := joinName ++ ".")]

/-- A record is what another one has under an alias. -/
structure FlattenedUnder (joinName : String) (whole part : Record) : Prop where
  /-- Every attribute comes from a name under the alias. -/
  only : ∀ name value, part.get? name = some value →
    ∃ path, whole.get? (joinName ++ "." ++ path) = some value ∧ name = segment path
  /-- Every name under the alias gives an attribute. -/
  every : ∀ path value, whole.get? (joinName ++ "." ++ path) = some value →
    (part.get? (segment path)).isSome = true

/-- **Extracting a join gives what is flattened under its alias.** -/
theorem flattenedUnder_extract (record : Record) (child : String) (place : Nat) :
    FlattenedUnder (joinAlias child place) record (record.extract child place) := by
  constructor
  · intro name value h
    obtain ⟨⟨key, held⟩, hmem, hkey⟩ := List.mem_filterMap.mp (Attributes.mem_of_get?_ofList h)
    obtain ⟨_, hjoined, hpair⟩ := Option.map_eq_some_iff.mp hkey
    cases hpair
    obtain ⟨path, rfl, rfl⟩ := joinedName?_eq_some.mp hjoined
    exact ⟨path, (record.attributes.mem_entries_iff).mp hmem, rfl⟩
  · intro path value h
    have hjoined : joinedName? (joinAlias child place) (joinAlias child place ++ "." ++ path)
        = some (segment path) := joinedName?_eq_some.mpr ⟨path, rfl, rfl⟩
    have hpair : (joinedName? (joinAlias child place) (joinAlias child place ++ "." ++ path)).map
        (·, value) = some (segment path, value) := by
      rw [hjoined]
      rfl
    have hmem := record.attributes.mem_entries_iff.mpr h
    exact Attributes.isSome_get?_ofList (List.mem_filterMap.mpr ⟨_, hmem, hpair⟩)

end Record

end TypedRecords
