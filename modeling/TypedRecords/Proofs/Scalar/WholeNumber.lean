/-
Whole numbers are converted exactly or refused.

A scalar can hold a whole number at two widths or as an option code, and members of several types
read it.  Each of these conversions either gives a value that is the same number or refuses the
scalar by its kind, and which of the two is told here: a word refuses what does not fit it.  Text is
read as a word when it is a sign and digits of a number that fits, and else refused as text.
-/
import TypedRecords.Proofs.Number.Decimal
import TypedRecords.Proofs.Text.Digits
import TypedRecords.Scalar.Member

namespace TypedRecords

open Number (Decimal)

/-! ### Words -/

namespace Number

/-- The number has a signed word of so many bits. -/
def Fits (bits : Nat) (n : Int) : Prop := -2 ^ (bits - 1) ≤ n ∧ n < 2 ^ (bits - 1)

instance (bits : Nat) (n : Int) : Decidable (Fits bits n) := inferInstanceAs (Decidable (_ ∧ _))

/-- `word?` gives the word of a number that fits, and `toInt` the number of a word. -/
structure IsWord {α : Type} (bits : Nat) (toInt : α → Int) (word? : Int → Option α) : Prop where
  fits (a : α) : Fits bits (toInt a)
  exists_word {n : Int} : Fits bits n → ∃ a, word? n = some a ∧ toInt a = n
  eq_none {n : Int} : ¬ Fits bits n → word? n = none

theorem isWord_int32 : IsWord 32 Int32.toInt int32? where
  fits w := ⟨w.le_toInt, w.toInt_lt⟩
  exists_word h := by
    have hsome : int32? _ = some _ := if_pos h
    exact ⟨_, hsome, toInt_of_int32? hsome⟩
  eq_none h := if_neg h

theorem isWord_int64 : IsWord 64 Int64.toInt int64? where
  fits w := ⟨w.le_toInt, w.toInt_lt⟩
  exists_word h := by
    have hsome : int64? _ = some _ := if_pos h
    exact ⟨_, hsome, toInt_of_int64? hsome⟩
  eq_none h := if_neg h

end Number

open Number (Fits IsWord)

/-! ### Exact conversions -/

/-- The scalar holds the whole number. -/
inductive Scalar.Holds : Scalar → Int → Prop
  | int (w : Int32) : Holds (.int w) w.toInt
  | bigint (w : Int64) : Holds (.bigint w) w.toInt
  | choice (c : Choice) : Holds (.choice c) c.code.toInt

/-- Where it is `possible`, the conversion gives a value that is the number, and else it refuses the
scalar by its kind. -/
structure Converts {α : Type} (s : Scalar) (expected : String) (possible : Prop)
    (isNumber : α → Prop) (result : Except ConversionError α) : Prop where
  gives : possible → ∃ a, result = .ok a ∧ isNumber a
  refuses : ¬ possible → result = .error ⟨expected, s.kind⟩

/-- What each type makes of a scalar that holds `n`. -/
structure Scalar.ConvertsExactly (s : Scalar) (n : Int) : Prop where
  int32 : Converts s "i32" (Fits 32 n) (fun w : Int32 => w.toInt = n) (Member.ofScalar s)
  int64 : Converts s "i64" (Fits 64 n) (fun w : Int64 => w.toInt = n) (Member.ofScalar s)
  /-- An option code is no decimal. -/
  decimal : Converts s "decimal" (s.kind ≠ .choice) (fun d : Decimal => d.value = n)
    (Member.ofScalar s)
  /-- A member that is an option code takes no 64-bit number, not even one that fits. -/
  choice : Converts s "option set" (s.kind ≠ .bigint) (fun c : Choice => c.code.toInt = n)
    (Member.ofScalar s)
  /-- A field that asks for an option code takes each number that fits. -/
  coerced : Converts s "option set" (Fits 32 n) (fun out => out.kind = .choice ∧ out.Holds n)
    s.toChoice

/-- What words of so many bits are read from text. -/
structure ReadsNumerals (α : Type) [Member α] (bits : Nat) (toInt : α → Int) (expected : String) :
    Prop where
  /-- A text is read as a number exactly when it is a numeral of it and the number fits. -/
  reads_iff (text : String) (n : Int) :
    (∃ a : α, Member.ofScalar (.string text) = .ok a ∧ toInt a = n)
      ↔ Text.IsNumeral text.toList n ∧ Fits bits n
  /-- Each other text is refused as text. -/
  refuses (text : String) : (∀ n, Text.IsNumeral text.toList n → ¬ Fits bits n) →
    (Member.ofScalar (.string text) : Except ConversionError α) = .error ⟨expected, .string⟩

section

variable {α : Type} {s : Scalar} {expected : String} {bits : Nat} {toInt : α → Int}
  {word? : Int → Option α} {n : Int}

theorem orRefuse_eq_ok {result : Option α} {a : α} :
    s.orRefuse expected result = .ok a ↔ result = some a := by
  cases result with
  | none => exact ⟨nofun, nofun⟩
  | some b =>
      constructor
      · intro h
        rw [Except.ok.inj h]
      · intro h
        rw [Option.some.inj h]
        rfl

namespace Converts

variable {possible : Prop} {isNumber : α → Prop}

theorem of_ok {a : α} (hpossible : possible) (ha : isNumber a) :
    Converts s expected possible isNumber (.ok a) :=
  ⟨fun _ => ⟨a, rfl, ha⟩, fun h => absurd hpossible h⟩

theorem of_refuse (h : ¬ possible) : Converts s expected possible isNumber (s.refuse expected) :=
  ⟨fun hpossible => absurd hpossible h, fun _ => rfl⟩

end Converts

namespace Number.IsWord

theorem toInt_eq (hword : IsWord bits toInt word?) {a : α} (h : word? n = some a) :
    toInt a = n := by
  by_cases hfits : Fits bits n
  · obtain ⟨b, hb, rfl⟩ := hword.exists_word hfits
    rw [Option.some.inj (h.symm.trans hb)]
  · rw [hword.eq_none hfits] at h
    cases h

/-- A word that is the number is right for it. -/
theorem converts_ok (hword : IsWord bits toInt word?) {a : α} (ha : toInt a = n) :
    Converts s expected (Fits bits n) (toInt · = n) (.ok a) :=
  .of_ok (ha ▸ hword.fits a) ha

/-- A checked word is right for each number. -/
theorem converts_orRefuse (hword : IsWord bits toInt word?) :
    Converts s expected (Fits bits n) (toInt · = n) (s.orRefuse expected (word? n)) where
  gives h := by
    obtain ⟨a, ha, hn⟩ := hword.exists_word h
    exact ⟨a, orRefuse_eq_ok.mpr ha, hn⟩
  refuses h := by
    rw [hword.eq_none h]
    rfl

/-- A type that reads text into checked words reads the numerals that fit. -/
theorem readsNumerals [Member α] (hword : IsWord bits toInt word?)
    (hread : ∀ text, Member.ofScalar (.string text)
      = (Scalar.string text).orRefuse expected ((Text.readInt text.toList).bind word?)) :
    ReadsNumerals α bits toInt expected where
  reads_iff text n := by
    constructor
    · rintro ⟨a, ha, rfl⟩
      rw [hread, orRefuse_eq_ok, Option.bind_eq_some_iff] at ha
      obtain ⟨m, hm, ha⟩ := ha
      rw [hword.toInt_eq ha]
      exact ⟨Text.readInt_eq_some_iff.mp hm, hword.toInt_eq ha ▸ hword.fits a⟩
    · rintro ⟨hnumeral, hfits⟩
      obtain ⟨a, ha, hn⟩ := hword.exists_word hfits
      refine ⟨a, ?_, hn⟩
      rw [hread, orRefuse_eq_ok, Text.readInt_eq_some_iff.mpr hnumeral, Option.bind_some, ha]
  refuses text h := by
    have hnone : (Text.readInt text.toList).bind word? = none := by
      cases hm : Text.readInt text.toList with
      | none => rfl
      | some m => exact hword.eq_none (h m (Text.readInt_eq_some_iff.mp hm))
    rw [hread, hnone]
    rfl

end Number.IsWord

end

open Number (isWord_int32 isWord_int64)

/-- A 64-bit number is given as an option code when it fits one. -/
theorem Scalar.converts_toChoice (w : Int64) :
    Converts (.bigint w) "option set" (Fits 32 w.toInt)
      (fun out => out.kind = .choice ∧ out.Holds w.toInt) (toChoice (.bigint w)) where
  gives h := by
    obtain ⟨code, hcode, hn⟩ := isWord_int32.exists_word h
    refine ⟨.choice ⟨code⟩, by simp only [toChoice, hcode], rfl, ?_⟩
    rw [← hn]
    exact .choice ⟨code⟩
  refuses h := by
    simp only [toChoice, isWord_int32.eq_none h]
    rfl

/-- One case for each kind of scalar that holds a whole number. -/
theorem Scalar.Holds.convertsExactly {s : Scalar} {n : Int} (h : s.Holds n) :
    s.ConvertsExactly n := by
  cases h with
  | int w =>
      exact {
        int32 := isWord_int32.converts_ok rfl
        int64 := isWord_int64.converts_ok w.toInt_toInt64
        decimal := .of_ok nofun (Decimal.value_of_scale rfl)
        choice := .of_ok nofun rfl
        coerced := .of_ok (isWord_int32.fits w) ⟨rfl, .choice ⟨w⟩⟩ }
  | bigint w =>
      exact {
        int32 := isWord_int32.converts_orRefuse
        int64 := isWord_int64.converts_ok rfl
        decimal := .of_ok nofun (Decimal.value_of_scale rfl)
        choice := .of_refuse fun h => h rfl
        coerced := converts_toChoice w }
  | choice c =>
      exact {
        int32 := isWord_int32.converts_ok rfl
        int64 := isWord_int64.converts_ok c.code.toInt_toInt64
        decimal := .of_refuse fun h => h rfl
        choice := .of_ok nofun rfl
        coerced := .of_ok (isWord_int32.fits c.code) ⟨rfl, .choice c⟩ }

/-- **Whole numbers are converted exactly or refused**, from each scalar that holds one and from
text. -/
theorem whole_numbers_exact_or_refused :
    (∀ {s : Scalar} {n : Int}, s.Holds n → s.ConvertsExactly n) ∧
    ReadsNumerals Int32 32 Int32.toInt "i32" ∧ ReadsNumerals Int64 64 Int64.toInt "i64" :=
  ⟨fun h => h.convertsExactly, isWord_int32.readsNumerals fun _ => rfl,
    isWord_int64.readsNumerals fun _ => rfl⟩

/-- The first number that is too wide for 32 bits, and the last that is not, as text. -/
theorem whole_numbers_exact_or_refused_at_limit :
    let wide := Scalar.bigint 2147483648
    let text := "+02147483647"
    wide.Holds 2147483648 ∧
    (∃ w : Int64, Member.ofScalar wide = .ok w ∧ w.toInt = 2147483648) ∧
    (Member.ofScalar wide : Except ConversionError Int32) = .error ⟨"i32", .bigint⟩ ∧
    wide.toChoice = .error ⟨"option set", .bigint⟩ ∧
    Text.IsNumeral text.toList 2147483647 ∧
    (∃ w : Int32, Member.ofScalar (.string text) = .ok w ∧ w.toInt = 2147483647) := by
  intro wide text
  obtain ⟨hscalars, htext, -⟩ := whole_numbers_exact_or_refused
  have hholds : wide.Holds 2147483648 := .bigint 2147483648
  have hdigits : Text.IsDigits "02147483647".toList 2147483647 :=
    ⟨[0, 2, 1, 4, 7, 4, 8, 3, 6, 4, 7], by decide, by decide, by decide, by decide⟩
  have hnumeral : Text.IsNumeral text.toList 2147483647 := by
    rw [show text.toList = '+' :: "02147483647".toList by decide]
    exact .plus hdigits
  have hwide := hscalars hholds
  exact ⟨hholds, hwide.int64.gives (by decide), hwide.int32.refuses (by decide),
    hwide.coerced.refuses (by decide), hnumeral, (htext.reads_iff _ _).mpr ⟨hnumeral, by decide⟩⟩

end TypedRecords
