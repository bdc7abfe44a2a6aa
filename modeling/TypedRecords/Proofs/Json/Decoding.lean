/-
Decoders and the writers they undo.

A tree's depth is the number of arrays and objects that stand inside one another in it.  A decoder
reads a writer when it gets every value back out of the tree written for it, provided that the room
for nesting is at least the tree's depth, and nothing otherwise.  Stated this way, with the exact
condition, the law composes: a list is read when its items are, a structure when its fields are, and
the room that is left inside is one less while the depth inside is one less too.
-/
import TypedRecords.Json.Records
import TypedRecords.Proofs.Json.Text
import Mathlib.Logic.Basic

namespace TypedRecords.Json

/-! ### Depth -/

mutual

/-- How many arrays and objects stand inside one another. -/
def depth : Json → Nat
  | .array items => itemsDepth items + 1
  | .object members => membersDepth members + 1
  | .null | .bool _ | .number _ | .quoted _ => 0

/-- The depth of the deepest item. -/
def itemsDepth : List Json → Nat
  | [] => 0
  | item :: rest => max item.depth (itemsDepth rest)

/-- The depth of the deepest member. -/
def membersDepth : List (Option String × Json) → Nat
  | [] => 0
  | (_, value) :: rest => max value.depth (membersDepth rest)

end

/-- The depth of the deepest field. -/
def fieldsDepth : List (String × Json) → Nat
  | [] => 0
  | (_, value) :: rest => max value.depth (fieldsDepth rest)

/-- Every numeral in the fields is well-formed. -/
def WellFormedFields (fields : List (String × Json)) : Prop := ∀ f ∈ fields, f.2.WellFormed

theorem depth_members (fields : List (String × Json)) :
    (members fields).depth = fieldsDepth fields + 1 := by
  rw [members, depth]
  congr 1
  induction fields with
  | nil => simp [membersDepth, fieldsDepth]
  | cons field rest ih =>
      obtain ⟨name, value⟩ := field
      simp only [List.map_cons, membersDepth, fieldsDepth, ih]

theorem wellFormed_members {fields : List (String × Json)} (h : WellFormedFields fields) :
    (members fields).WellFormed := by
  rw [members, WellFormed]
  induction fields with
  | nil => simp [WellFormedMembers]
  | cons field rest ih =>
      obtain ⟨name, value⟩ := field
      simp only [List.map_cons, WellFormedMembers]
      exact ⟨h (name, value) (by simp), ih fun f hf => h f (by simp [hf])⟩

theorem depth_list_le {α : Type} {write : α → Json} {n : Nat} (h : ∀ a, (write a).depth ≤ n)
    (items : List α) : (list write items).depth ≤ n + 1 := by
  rw [list, depth, Nat.add_le_add_iff_right]
  induction items with
  | nil => simp [itemsDepth]
  | cons item rest ih => exact Nat.max_le.mpr ⟨h item, ih⟩

@[simp] theorem depth_null : (null).depth = 0 := by rw [depth]

@[simp] theorem depth_bool (b : Bool) : (bool b).depth = 0 := by rw [depth]

@[simp] theorem depth_string (s : String) : (string s).depth = 0 := by rw [string, depth]

@[simp] theorem depth_nat (n : Nat) : (nat n).depth = 0 := by rw [nat, depth]

@[simp] theorem wellFormed_null : (null).WellFormed := by rw [WellFormed]; trivial

@[simp] theorem wellFormed_bool (b : Bool) : (bool b).WellFormed := by rw [WellFormed]; trivial

@[simp] theorem wellFormed_string (s : String) : (string s).WellFormed := by
  rw [string, WellFormed]
  trivial

@[simp] theorem wellFormed_nat (n : Nat) : (nat n).WellFormed := by
  rw [nat, WellFormed]
  exact Numeral.wellFormed_ofNat n

/-! ### Reading what was written -/

namespace Decoder

/-- The value, if there is room for a depth. -/
def within {α : Type} (depth room : Nat) (a : α) : Option α := if depth ≤ room then some a else none

/-- The decoder gets back what the writer wrote, exactly when the room is enough. -/
structure Reads {α : Type} (d : Decoder α) (write : α → Json) : Prop where
  wellFormed : ∀ a, (write a).WellFormed
  decode : ∀ room a, d room (write a) = within (write a).depth room a

variable {α β : Type} {d : Decoder α} {write : α → Json}

@[simp] theorem within_zero (room : Nat) (a : α) : within 0 room a = some a :=
  if_pos (Nat.zero_le room)

/-- One level inside takes one level of the room. -/
theorem within_succ (depth room : Nat) (a : α) :
    within (depth + 1) (room + 1) a = within depth room a := by
  simp [within]

@[simp] theorem map_within (depth room : Nat) (a : α) (f : α → β) :
    (within depth room a).map f = within depth room (f a) := by
  unfold within
  split <;> rfl

@[simp] theorem within_bind_some (depth room : Nat) (a : α) (f : α → β) :
    ((within depth room a).bind fun a => some (f a)) = within depth room (f a) := by
  unfold within
  split <;> rfl

/-- Where two values are read, both have to find room. -/
@[simp] theorem within_bind_within (m n room : Nat) (a : α) (f : α → β) :
    ((within m room a).bind fun a => within n room (f a)) = within (max m n) room (f a) := by
  unfold within
  by_cases hm : m ≤ room
  · simp [hm]
  · simp [hm]

/-- **A written text is decoded to the value it was written for**, if it nests no deeper than a text
may, and refused otherwise. -/
theorem Reads.ofText?_text (h : d.Reads write) (a : α) :
    d.ofText? (write a).text = within (write a).depth nestingRoom a := by
  rw [Decoder.ofText?, Json.ofText?_text (h.wellFormed a)]
  exact h.decode nestingRoom a

/-! ### Simple values -/

theorem reads_string : string.Reads Json.string where
  wellFormed := wellFormed_string
  decode room s := by
    rw [depth_string, within_zero]
    rfl

theorem reads_bool : bool.Reads Json.bool where
  wellFormed := wellFormed_bool
  decode room b := by
    rw [depth_bool, within_zero]
    rfl

theorem reads_uint32 : uint32.Reads fun w => Json.nat w.toNat where
  wellFormed w := wellFormed_nat w.toNat
  decode room w := by
    have hint : int room (Json.nat w.toNat) = some (w.toNat : Int) := Numeral.toInt?_ofNat w.toNat
    have hnat : nat room (Json.nat w.toNat) = some w.toNat := by
      rw [nat, hint]
      simp
    rw [depth_nat, within_zero, uint32, hnat]
    show Number.uint32? w.toNat = some w
    rw [Number.uint32?, if_pos w.toNat_lt, UInt32.ofNat_toNat]

/-- A value or null. -/
theorem Reads.nullable (h : d.Reads write) (hnull : ∀ a, write a ≠ .null) :
    (nullable d).Reads (ofOption write) where
  wellFormed
    | none => wellFormed_null
    | some a => h.wellFormed a
  decode room
    | none => by
        show some none = within (Json.null).depth room none
        rw [depth_null, within_zero]
    | some a => by
        have hopen : Decoder.nullable d room (write a) = (d room (write a)).map some := by
          unfold Decoder.nullable
          split
          · rename_i hj
            exact absurd hj (hnull a)
          · rfl
        show Decoder.nullable d room (write a) = within (write a).depth room (some a)
        rw [hopen, h.decode, map_within]

/-! ### Lists -/

theorem mapM_decode (h : d.Reads write) (room : Nat) (items : List α) :
    (items.map write).mapM (d room) = within (itemsDepth (items.map write)) room items := by
  induction items with
  | nil => simp [itemsDepth]
  | cons item rest ih =>
      rw [List.map_cons, itemsDepth, List.mapM_cons, ih, h.decode]
      simp

theorem Reads.list (h : d.Reads write) : (list d).Reads (Json.list write) where
  wellFormed items := by
    rw [Json.list, WellFormed]
    induction items with
    | nil => simp [WellFormedItems]
    | cons item rest ih => exact ⟨h.wellFormed item, ih⟩
  decode room items := by
    rw [Json.list, depth]
    cases room with
    | zero => rfl
    | succ room =>
        show (items.map write).mapM (d room) = _
        rw [mapM_decode h, within_succ]

/-! ### Structures -/

theorem known_of_subset (names : List String) {fields : List (String × Json)}
    (h : ∀ f ∈ fields, f.1 ∈ names) :
    known names (fields.map fun (name, value) => (some name, value)) = fields := by
  rw [known, List.filterMap_map]
  induction fields with
  | nil => rfl
  | cons field rest ih =>
      obtain ⟨name, value⟩ := field
      have hname : name ∈ names := h (name, value) (by simp)
      rw [List.filterMap_cons, ih fun f hf => h f (by simp [hf])]
      simp [hname]

/-- Inside a written structure, its fields are what is given. -/
theorem parts_members {fields : List (String × Json)} (hnodup : (fields.map Prod.fst).Nodup)
    (room : Nat) : parts (fields.map Prod.fst) false (room + 1) (members fields)
      = some ⟨room, fields⟩ := by
  have hknown := known_of_subset (fields.map Prod.fst) fun f hf => List.mem_map_of_mem hf
  simp only [members, parts, hknown]
  rw [if_pos]
  simpa using hnodup

/-- A structure is read by reading its fields in the room inside. -/
theorem decode_members {read : Parts → Option α} {fields : List (String × Json)}
    (hnodup : (fields.map Prod.fst).Nodup) {a : α} {room : Nat}
    (h : ∀ inside, room = inside + 1 →
      read ⟨inside, fields⟩ = within (fieldsDepth fields) inside a) :
    (parts (fields.map Prod.fst) false room (members fields)).bind read
      = within (members fields).depth room a := by
  rw [depth_members]
  cases room with
  | zero => rfl
  | succ room =>
      rw [parts_members hnodup, Option.bind_some, h room rfl, within_succ]

/-! ### Fields by name -/

theorem Parts.required_cons (room : Nat) (n name : String) (j : Json)
    (rest : List (String × Json)) (d : Decoder α) : Parts.required ⟨room, (n, j) :: rest⟩ name d
      = if name = n then d room j else Parts.required ⟨room, rest⟩ name d := by
  by_cases h : name = n
  · simp [Parts.required, h]
  · have hne : (name == n) = false := beq_false_of_ne h
    simp [Parts.required, List.lookup_cons, h, hne]

theorem Parts.optional_cons (room : Nat) (n name : String) (j : Json)
    (rest : List (String × Json)) (d : Decoder α) : Parts.optional ⟨room, (n, j) :: rest⟩ name d
      = if name = n then nullable d room j else Parts.optional ⟨room, rest⟩ name d := by
  by_cases h : name = n
  · simp [Parts.optional, h]
  · have hne : (name == n) = false := beq_false_of_ne h
    simp [Parts.optional, List.lookup_cons, h, hne]

end Decoder

end TypedRecords.Json
