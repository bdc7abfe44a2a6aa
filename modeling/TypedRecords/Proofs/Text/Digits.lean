/-
What is written in digits reads back.

A number is written at a fixed width or with as many digits as it needs; either way its text is the
fixed-width digits of a width that holds it, one character a digit.  A reader takes the values of the
characters, so it gives the number back.  Of the other texts it takes those that are an optional sign
and digits, leading zeros allowed: `IsNumeral` says so without the reader.
-/
import Mathlib.Data.List.Basic
import Mathlib.Order.Basic
import Mathlib.Tactic.IntervalCases
import TypedRecords.Text.Digits

namespace TypedRecords.Text

/-! ### Digits as characters -/

theorem digitValue?_digitChar {d : Nat} (h : d < 10) :
    digitValue? (Nat.digitChar d) = some d := by
  have hdigit : (Nat.digitChar d).isDigit = true := by simp [Nat.isDigit_digitChar, h]
  rw [digitValue?, if_pos hdigit]
  exact congrArg some (Nat.toNat_digitChar_sub_48_of_lt_ten h)

theorem hexValue?_digitChar {d : Nat} (h : d < 16) :
    hexValue? (Nat.digitChar d) = some d := by
  interval_cases d <;> rfl

/-- Characters are read one by one. -/
theorem mapM_map_eq_some {value? : Char → Option Nat} {char : Nat → Char} {ds : List Nat}
    (h : ∀ d ∈ ds, value? (char d) = some d) : (ds.map char).mapM value? = some ds := by
  induction ds with
  | nil => rfl
  | cons d ds ih =>
      rw [List.map_cons, List.mapM_cons, h d (by simp), ih fun e he => h e (by simp [he])]
      rfl

theorem lt_of_mem_fixedDigits {base width n d : Nat} (hbase : 0 < base)
    (h : d ∈ fixedDigits base width n) : d < base := by
  induction width generalizing n with
  | zero => simp [fixedDigits] at h
  | succ width ih =>
      rw [fixedDigits, List.mem_append, List.mem_singleton] at h
      rcases h with h | rfl
      · exact ih h
      · exact Nat.mod_lt n hbase

/-- Decimal digits are read as they were written. -/
theorem mapM_digitValue? (width n : Nat) :
    ((fixedDigits 10 width n).map Nat.digitChar).mapM digitValue?
      = some (fixedDigits 10 width n) :=
  mapM_map_eq_some fun _ hd => digitValue?_digitChar (lt_of_mem_fixedDigits (by decide) hd)

/-- Hexadecimal digits are read as they were written. -/
theorem mapM_hexValue? (width n : Nat) :
    ((fixedDigits 16 width n).map Nat.digitChar).mapM hexValue?
      = some (fixedDigits 16 width n) :=
  mapM_map_eq_some fun _ hd => hexValue?_digitChar (lt_of_mem_fixedDigits (by decide) hd)

/-! ### Numbers in base ten -/

/-- The last digit of a padded number stands behind the padded rest. -/
theorem padded_succ {width : Nat} (hwidth : 0 < width) (n : Nat) :
    padded (width + 1) n = padded width (n / 10) ++ [Nat.digitChar (n % 10)] := by
  unfold padded
  by_cases hn : n < 10
  · obtain ⟨rest, rfl⟩ : ∃ rest, width = rest + 1 := ⟨width - 1, by omega⟩
    rw [Nat.toDigits_of_lt_base hn, Nat.div_eq_of_lt hn, Nat.mod_eq_of_lt hn, Nat.toDigits_zero]
    show List.replicate (rest + 1) '0' ++ [Nat.digitChar n]
      = List.replicate rest '0' ++ ['0'] ++ [Nat.digitChar n]
    rw [List.replicate_succ']
  · rw [Nat.toDigits_of_base_le (by decide) (by omega)]
    dsimp only
    rw [List.length_append, List.length_singleton, Nat.add_sub_add_right, List.append_assoc]

/-- A padded number that fits its width has the digits of that width. -/
theorem padded_eq {width n : Nat} (hwidth : 0 < width) (h : n < 10 ^ width) :
    padded width n = (fixedDigits 10 width n).map Nat.digitChar := by
  induction width, hwidth using Nat.le_induction generalizing n with
  | base =>
      have hn : n < 10 := by simpa using h
      rw [padded, Nat.toDigits_of_lt_base hn, fixedDigits, Nat.mod_eq_of_lt hn]
      rfl
  | succ width hwidth ih =>
      have hrest : n / 10 < 10 ^ width := Nat.div_lt_of_lt_mul (by rw [Nat.pow_succ] at h; omega)
      rw [padded_succ hwidth, ih hrest, fixedDigits, List.map_append]
      rfl

/-- A number's own digits are those of the width that they take. -/
theorem toDigits_eq (n : Nat) : Nat.toDigits 10 n
    = (fixedDigits 10 (Nat.toDigits 10 n).length n).map Nat.digitChar := by
  have hpos : 0 < (Nat.toDigits 10 n).length := Nat.length_toDigits_pos
  rw [← padded_eq hpos ((Nat.length_toDigits_le_iff (by decide) hpos).mp (Nat.le_refl _))]
  simp [padded]

theorem readNat_toDigits (n : Nat) : readNat (Nat.toDigits 10 n) = some n := by
  have hpos : 0 < (Nat.toDigits 10 n).length := Nat.length_toDigits_pos
  have hlt := (Nat.length_toDigits_le_iff (by decide) hpos).mp (Nat.le_refl _)
  have hread : (Nat.toDigits 10 n).mapM digitValue?
      = some (fixedDigits 10 (Nat.toDigits 10 n).length n) := by
    conv => lhs; rw [toDigits_eq]
    exact mapM_digitValue? _ n
  rw [readNat, if_neg (by simp [Nat.toDigits_ne_nil]), hread, Option.map_some,
    ofDigits_fixedDigits, Nat.mod_eq_of_lt hlt]

/-- **A whole number reads back**, with its sign. -/
theorem readInt_intText (n : Int) : readInt (intText n).toList = some n := by
  unfold intText
  by_cases hn : n < 0
  · rw [if_pos hn, String.toList_ofList, readInt, readNat_toDigits]
    show some (-(n.natAbs : Int)) = some n
    congr 1
    omega
  · rw [if_neg hn, String.toList_ofList]
    have hdigit (c : Char) (cs : List Char) (h : Nat.toDigits 10 n.natAbs = c :: cs) :
        c.isDigit = true :=
      Nat.isDigit_of_mem_toDigits (by decide) (by decide) (h ▸ List.mem_cons_self)
    unfold readInt
    split
    · rename_i cs h
      cases hdigit _ _ h
    · rename_i cs h
      cases hdigit _ _ h
    · rw [readNat_toDigits]
      show some (n.natAbs : Int) = some n
      congr 1
      omega

/-! ### Texts that are numbers -/

/-- One or more ASCII digits that stand for `n`. -/
def IsDigits (cs : List Char) (n : Nat) : Prop :=
  ∃ ds, ds ≠ [] ∧ (∀ d ∈ ds, d < 10) ∧ cs = ds.map Nat.digitChar ∧ n = ofDigits 10 0 ds

/-- An optional sign followed by one or more ASCII digits, and the number that this is. -/
inductive IsNumeral : List Char → Int → Prop
  | unsigned {cs : List Char} {n : Nat} : IsDigits cs n → IsNumeral cs n
  | plus {cs : List Char} {n : Nat} : IsDigits cs n → IsNumeral ('+' :: cs) n
  | minus {cs : List Char} {n : Nat} : IsDigits cs n → IsNumeral ('-' :: cs) (-n)

theorem digitValue?_eq_some {c : Char} {d : Nat} (h : digitValue? c = some d) :
    d < 10 ∧ c = Nat.digitChar d := by
  unfold digitValue? at h
  by_cases hdigit : c.isDigit = true
  · rw [if_pos hdigit] at h
    obtain ⟨hlow, hhigh⟩ := Char.isDigit_iff_toNat.mp hdigit
    have hd : c.toNat = 48 + d ∧ d < 10 := by
      have hsub : c.toNat - 48 = d := Option.some.inj h
      have hlow : 48 ≤ c.toNat := hlow
      have hhigh : c.toNat ≤ 57 := hhigh
      omega
    exact ⟨hd.2, Char.toNat_inj.mp (by rw [hd.1, Nat.toNat_digitChar_of_lt_ten hd.2])⟩
  · rw [if_neg hdigit] at h
    cases h

/-- Only digits are read one by one. -/
theorem of_mapM_digitValue? {cs : List Char} {ds : List Nat}
    (h : cs.mapM digitValue? = some ds) : (∀ d ∈ ds, d < 10) ∧ cs = ds.map Nat.digitChar := by
  induction cs generalizing ds with
  | nil =>
      cases h
      exact ⟨by simp, rfl⟩
  | cons c cs ih =>
      rw [List.mapM_cons] at h
      obtain ⟨d, hd, h⟩ := Option.bind_eq_some_iff.mp h
      obtain ⟨es, hes, h⟩ := Option.bind_eq_some_iff.mp h
      cases h
      obtain ⟨hlt, hchar⟩ := digitValue?_eq_some hd
      obtain ⟨hall, hchars⟩ := ih hes
      refine ⟨List.forall_mem_cons.mpr ⟨hlt, hall⟩, ?_⟩
      rw [List.map_cons, ← hchar, ← hchars]

theorem readNat_eq_some_iff {cs : List Char} {n : Nat} :
    readNat cs = some n ↔ IsDigits cs n := by
  unfold readNat
  constructor
  · intro h
    by_cases hempty : cs.isEmpty = true
    · rw [if_pos hempty] at h
      cases h
    · rw [if_neg hempty] at h
      obtain ⟨ds, hds, rfl⟩ := Option.map_eq_some_iff.mp h
      obtain ⟨hlt, rfl⟩ := of_mapM_digitValue? hds
      exact ⟨ds, by simpa using hempty, hlt, rfl, rfl⟩
  · rintro ⟨ds, hne, hlt, rfl, rfl⟩
    rw [if_neg (by simpa using hne),
      mapM_map_eq_some fun d hd => digitValue?_digitChar (hlt d hd), Option.map_some]

/-- Digits do not start with a sign. -/
theorem IsDigits.ne_sign {c : Char} {cs : List Char} {n : Nat} (h : IsDigits (c :: cs) n) :
    c ≠ '-' ∧ c ≠ '+' := by
  obtain ⟨ds, -, hlt, hchars, -⟩ := h
  have hall : ∀ d < 10, Nat.digitChar d ≠ '-' ∧ Nat.digitChar d ≠ '+' := by decide
  cases ds with
  | nil => cases hchars
  | cons d ds =>
      rw [List.map_cons, List.cons.injEq] at hchars
      rw [hchars.1]
      exact hall d (hlt d (by simp))

/-- What is read behind a sign is digits. -/
theorem exists_isDigits {cs : List Char} {f : Int → Int} {n : Int}
    (h : (readNat cs : Option Int).map f = some n) : ∃ m : Nat, IsDigits cs m ∧ f m = n := by
  obtain ⟨k, hk, rfl⟩ := Option.map_eq_some_iff.mp h
  obtain ⟨m, hread, hm⟩ := Option.bind_eq_some_iff.mp hk
  cases hm
  exact ⟨m, readNat_eq_some_iff.mp hread, rfl⟩

/-- The reader takes the numerals and no other text. -/
theorem readInt_eq_some_iff {cs : List Char} {n : Int} :
    readInt cs = some n ↔ IsNumeral cs n := by
  constructor
  · intro h
    unfold readInt at h
    split at h
    · obtain ⟨m, hm, rfl⟩ := exists_isDigits h
      exact .minus hm
    · obtain ⟨m, hm, rfl⟩ := exists_isDigits h
      exact .plus hm
    · obtain ⟨m, hm, rfl⟩ := exists_isDigits h
      exact .unsigned hm
  · intro h
    cases h with
    | unsigned h =>
        unfold readInt
        split
        · exact absurd rfl h.ne_sign.1
        · exact absurd rfl h.ne_sign.2
        · rw [readNat_eq_some_iff.mpr h]
          rfl
    | plus h =>
        rw [readInt, readNat_eq_some_iff.mpr h]
        rfl
    | minus h =>
        rw [readInt, readNat_eq_some_iff.mpr h]
        rfl

end TypedRecords.Text
