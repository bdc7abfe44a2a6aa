/-
What trimming leaves.

Trimming drops the blanks in front and then those at the end.  Dropping at the end takes nothing
from the front, so a text that was trimmed starts and ends with characters that stay, and trimming
it again takes nothing.
-/
import TypedRecords.Text.Blank
import Mathlib.Data.List.DropRight

namespace TypedRecords.Text

variable {p : Char → Bool}

/-- Nothing more to drop at the end after it was dropped. -/
theorem dropEndWhile_dropEndWhile (cs : List Char) :
    dropEndWhile p (dropEndWhile p cs) = dropEndWhile p cs :=
  List.rdropWhile_idempotent p cs

/-- Dropping at the end leaves the front as it is, unless nothing stays. -/
theorem dropWhile_dropEndWhile {cs : List Char} (h : cs.dropWhile p = cs) :
    (dropEndWhile p cs).dropWhile p = dropEndWhile p cs := by
  rw [List.dropWhile_eq_self_iff] at h ⊢
  intro hpos
  have hstart : dropEndWhile p cs <+: cs := List.rdropWhile_prefix p cs
  rw [hstart.getElem hpos]
  exact h (Nat.lt_of_lt_of_le hpos hstart.length_le)

/-- A trimmed text has no more blanks to trim. -/
theorem trim_trim (s : String) : trim (trim s) = trim s := by
  unfold trim
  rw [String.toList_ofList, dropWhile_dropEndWhile (List.dropWhile_idempotent ..),
    dropEndWhile_dropEndWhile]

/-! ### Texts with something around them -/

theorem dropWhile_eq_self {cs : List Char} (h : ∀ c ∈ cs, p c = false) : cs.dropWhile p = cs :=
  List.dropWhile_eq_self_iff.mpr fun hpos => by simp [h _ (List.getElem_mem hpos)]

/-- What satisfies `p` goes from the front, and the rest stays if none of it does. -/
theorem dropWhile_append_eq {front rest : List Char} (hfront : ∀ c ∈ front, p c = true)
    (hrest : ∀ c ∈ rest, p c = false) : (front ++ rest).dropWhile p = rest := by
  rw [List.dropWhile_append_of_pos hfront, dropWhile_eq_self hrest]

/-- What satisfies `p` goes from the end, and the rest stays if none of it does. -/
theorem dropEndWhile_append_eq {rest back : List Char} (hrest : ∀ c ∈ rest, p c = false)
    (hback : ∀ c ∈ back, p c = true) : dropEndWhile p (rest ++ back) = rest := by
  rw [dropEndWhile, List.reverse_append,
    dropWhile_append_eq (by simpa using hback) (by simpa using hrest), List.reverse_reverse]

/-- A text without blanks is what trimming leaves of it and blanks around it. -/
theorem toList_trim_surrounded {lead core tail : List Char} (hlead : ∀ c ∈ lead, isBlank c = true)
    (hcore : ∀ c ∈ core, isBlank c = false) (htail : ∀ c ∈ tail, isBlank c = true) :
    (trim (String.ofList (lead ++ core ++ tail))).toList = core := by
  rw [trim, String.toList_ofList, String.toList_ofList, List.append_assoc,
    List.dropWhile_append_of_pos hlead]
  cases core with
  | nil =>
      rw [List.nil_append, List.dropWhile_eq_nil_iff.mpr htail]
      rfl
  | cons c core =>
      have hc : isBlank c = false := hcore c List.mem_cons_self
      rw [List.cons_append, List.dropWhile_cons_of_neg (by simp [hc]), ← List.cons_append]
      exact dropEndWhile_append_eq hcore htail

end TypedRecords.Text
