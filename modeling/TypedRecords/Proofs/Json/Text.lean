/-
What is written reads back.

Reading a JSON text is done from the front, so each law here is about a written form with anything
behind it: the reader takes exactly the form and leaves the rest.  A numeral ends where no character
can go on with it; everything else ends by itself.  Readers of values share one fuel argument, and
the number of characters of a value's text is fuel enough to read it.
-/
import TypedRecords.Proofs.Text.Digits
import TypedRecords.Json.Reader
import TypedRecords.Json.Writer

namespace TypedRecords.Json

/-! ### Digits -/

/-- What stands behind does not begin with a digit. -/
def NoDigit (rest : List Char) : Prop :=
  ∀ c cs, rest = c :: cs → Text.digitValue? c = none

theorem spanDigits_append {ds : List Nat} (hds : ∀ d ∈ ds, d < 10) {rest : List Char}
    (hrest : NoDigit rest) : spanDigits (ds.map Nat.digitChar ++ rest) = (ds, rest) := by
  induction ds with
  | nil =>
      cases rest with
      | nil => rfl
      | cons c cs => simp [spanDigits, hrest c cs rfl]
  | cons d ds ih =>
      have hd : Text.digitValue? (Nat.digitChar d) = some d :=
        Text.digitValue?_digitChar (hds d (by simp))
      simp [spanDigits, hd, ih fun e he => hds e (by simp [he])]

/-- One or more digits. -/
def AreDigits (ds : List Nat) : Prop := ds ≠ [] ∧ ∀ d ∈ ds, d < 10

theorem readDigits_append {ds : List Nat} (hds : AreDigits ds) {rest : List Char}
    (hrest : NoDigit rest) : readDigits (ds.map Nat.digitChar ++ rest) = some (ds, rest) := by
  rw [readDigits, spanDigits_append hds.2 hrest]
  simp [hds.1]

/-! ### Numerals -/

/-- The numeral is one that a text can hold: it has digits where it has to, and its whole part has
no leading zero. -/
structure Numeral.WellFormed (n : Numeral) : Prop where
  whole : AreDigits n.whole
  /-- A whole part that begins with zero is zero. -/
  leading : n.whole.head? = some 0 → n.whole = [0]
  fraction : ∀ ds, n.fraction = some ds → AreDigits ds
  exponent : ∀ negative ds, n.exponent = some (negative, ds) → AreDigits ds

/-- What stands behind a numeral does not go on with it. -/
def NoNumeral (rest : List Char) : Prop :=
  NoDigit rest ∧ ∀ c cs, rest = c :: cs → c ≠ '.' ∧ c ≠ 'e' ∧ c ≠ 'E'

theorem noNumeral_nil : NoNumeral [] := ⟨nofun, nofun⟩

theorem noNumeral_cons {c : Char} {cs : List Char} (hc : c = ',' ∨ c = ']' ∨ c = '}') :
    NoNumeral (c :: cs) := by
  constructor
  · intro _ _ h
    cases h
    rcases hc with rfl | rfl | rfl <;> rfl
  · intro _ _ h
    cases h
    rcases hc with rfl | rfl | rfl <;> decide

theorem readWhole_append {n : Numeral} (h : n.WellFormed) {rest : List Char}
    (hrest : NoDigit rest) :
    readWhole (n.whole.map Nat.digitChar ++ rest) = some (n.whole, rest) := by
  have hdigits := readDigits_append h.whole hrest
  cases hwhole : n.whole with
  | nil => exact absurd hwhole h.whole.1
  | cons d ds =>
      rw [hwhole] at hdigits
      by_cases hd : d = 0
      · have hzero : n.whole = [0] := h.leading (by rw [hwhole, hd]; rfl)
        rw [hwhole] at hzero
        rw [hzero]
        rfl
      · have hchar : Nat.digitChar d ≠ '0' := fun hc => hd (Nat.digitChar_eq_zero.mp hc)
        rw [← hdigits]
        simp only [List.map_cons, List.cons_append]
        unfold readWhole
        split
        · rename_i hc
          exact absurd (List.cons.inj hc).1 hchar
        · rfl

/-- The written form of a fraction. -/
def fractionChars : Option (List Nat) → List Char
  | none => []
  | some ds => '.' :: ds.map Nat.digitChar

/-- The written form of an exponent. -/
def exponentChars : Option (Bool × List Nat) → List Char
  | none => []
  | some (negative, ds) => 'e' :: (if negative then ['-'] else []) ++ ds.map Nat.digitChar

theorem Numeral.chars_eq (n : Numeral) : n.chars
    = (if n.negative then ['-'] else []) ++ (n.whole.map Nat.digitChar
      ++ (fractionChars n.fraction ++ exponentChars n.exponent)) := by
  obtain ⟨negative, whole, fraction, exponent⟩ := n
  simp only [Numeral.chars, List.append_assoc]
  rcases fraction with _ | ds <;> rcases exponent with _ | ⟨sign, es⟩ <;> rfl

theorem readFraction_append {fraction : Option (List Nat)}
    (h : ∀ ds, fraction = some ds → AreDigits ds) {rest : List Char} (hrest : NoDigit rest)
    (hpoint : ∀ cs, rest ≠ '.' :: cs) :
    readFraction (fractionChars fraction ++ rest) = some (fraction, rest) := by
  cases fraction with
  | none =>
      show readFraction rest = _
      unfold readFraction
      split
      · exact absurd rfl (hpoint _)
      · rfl
  | some ds =>
      show (readDigits (ds.map Nat.digitChar ++ rest)).map _ = _
      rw [readDigits_append (h ds rfl) hrest]
      rfl

theorem digitChar_ne_sign {d : Nat} (h : d < 10) :
    Nat.digitChar d ≠ '-' ∧ Nat.digitChar d ≠ '+' := by
  interval_cases d <;> decide

theorem readExponent_append {exponent : Option (Bool × List Nat)}
    (h : ∀ negative ds, exponent = some (negative, ds) → AreDigits ds) {rest : List Char}
    (hrest : NoNumeral rest) :
    readExponent (exponentChars exponent ++ rest) = some (exponent, rest) := by
  rcases exponent with _ | ⟨negative, ds⟩
  · cases rest with
    | nil => rfl
    | cons c cs =>
        obtain ⟨-, he, hE⟩ := hrest.2 c cs rfl
        simp [exponentChars, readExponent, he, hE]
  · have hds : AreDigits ds := h negative ds rfl
    have hread := readDigits_append hds hrest.1
    cases negative with
    | true =>
        show (readDigits (ds.map Nat.digitChar ++ rest)).map _ = _
        rw [hread]
        rfl
    | false =>
        -- the first digit is no sign, so all of it is read as digits
        obtain ⟨hne, hlt⟩ := hds
        cases ds with
        | nil => exact absurd rfl hne
        | cons d ds =>
            obtain ⟨hminus, hplus⟩ := digitChar_ne_sign (hlt d (by simp))
            simp only [List.map_cons, List.cons_append] at hread
            simp only [exponentChars, readExponent, List.map_cons, List.cons_append,
              List.nil_append, Bool.false_eq_true, if_false, true_or, if_true]
            split
            · rename_i hc
              exact absurd (List.cons.inj hc).1 hminus
            · rename_i hc
              exact absurd (List.cons.inj hc).1 hplus
            · rw [hread]
              rfl

theorem noDigit_exponentChars {exponent : Option (Bool × List Nat)} {rest : List Char}
    (hrest : NoNumeral rest) : NoDigit (exponentChars exponent ++ rest) := by
  rcases exponent with _ | ⟨negative, ds⟩
  · exact hrest.1
  · intro c cs hc
    cases hc
    rfl

theorem noDigit_fractionChars (fraction : Option (List Nat)) {rest : List Char}
    (hrest : NoDigit rest) : NoDigit (fractionChars fraction ++ rest) := by
  cases fraction with
  | none => exact hrest
  | some ds =>
      intro c cs hc
      cases hc
      rfl

/-- **A numeral reads back**, up to the first character that cannot go on with it. -/
theorem readNumeral_chars {n : Numeral} (h : n.WellFormed) {rest : List Char}
    (hrest : NoNumeral rest) : readNumeral (n.chars ++ rest) = some (n, rest) := by
  have hexponent := readExponent_append h.exponent hrest
  have hdigit : NoDigit (exponentChars n.exponent ++ rest) := noDigit_exponentChars hrest
  have hpoint : ∀ cs, exponentChars n.exponent ++ rest ≠ '.' :: cs := by
    intro cs hc
    rcases hn : n.exponent with _ | ⟨negative, ds⟩
    · rw [hn] at hc
      exact (hrest.2 '.' cs hc).1 rfl
    · rw [hn] at hc
      cases hc
  have hfraction := readFraction_append h.fraction hdigit hpoint
  have hwhole := readWhole_append h (noDigit_fractionChars n.fraction hdigit)
  obtain ⟨negative, whole, fraction, exponent⟩ := n
  simp only [Numeral.chars_eq, List.append_assoc]
  cases negative with
  | true => simp [readNumeral, hwhole, hfraction, hexponent]
  | false =>
      obtain ⟨hne, hlt⟩ := h.whole
      cases whole with
      | nil => exact absurd rfl hne
      | cons d ds =>
          have hminus := (digitChar_ne_sign (hlt d (by simp))).1
          simp only [List.map_cons, List.cons_append] at hwhole
          simp only [readNumeral, List.map_cons, List.cons_append, List.nil_append,
            Bool.false_eq_true, if_false]
          simp [hwhole, hfraction, hexponent]

/-! ### Natural numbers -/

namespace Numeral

theorem digitsOf_of_lt {n : Nat} (h : n < 10) : digitsOf n = [n] := by
  rw [digitsOf, Nat.toDigits_of_lt_base h, List.filterMap_cons, Text.digitValue?_digitChar h]
  rfl

theorem digitsOf_of_le {n : Nat} (h : 10 ≤ n) :
    digitsOf n = digitsOf (n / 10) ++ [n % 10] := by
  have hlast : [Nat.digitChar (n % 10)].filterMap Text.digitValue? = [n % 10] := by
    rw [List.filterMap_cons, Text.digitValue?_digitChar (by omega)]
    rfl
  rw [digitsOf, Nat.toDigits_of_base_le (by decide) h, List.filterMap_append, hlast]
  rfl

theorem areDigits_digitsOf (n : Nat) : AreDigits (digitsOf n) := by
  induction n using Nat.strong_induction_on with
  | _ n ih =>
      by_cases h : n < 10
      · rw [digitsOf_of_lt h]
        exact ⟨by simp, by simpa using h⟩
      · obtain ⟨-, hlt⟩ := ih (n / 10) (by omega)
        rw [digitsOf_of_le (by omega)]
        refine ⟨by simp, fun d hd => ?_⟩
        rcases List.mem_append.mp hd with hd | hd
        · exact hlt d hd
        · rw [List.mem_singleton.mp hd]
          omega

/-- Only zero has a leading zero. -/
theorem head?_digitsOf (n : Nat) : (digitsOf n).head? = some 0 ↔ n = 0 := by
  induction n using Nat.strong_induction_on with
  | _ n ih =>
      by_cases h : n < 10
      · rw [digitsOf_of_lt h]
        simp
      · have hne := (areDigits_digitsOf (n / 10)).1
        rw [digitsOf_of_le (by omega), List.head?_append_of_ne_nil _ hne, ih _ (by omega)]
        omega

theorem ofDigits_digitsOf (n : Nat) : Text.ofDigits 10 0 (digitsOf n) = n := by
  induction n using Nat.strong_induction_on with
  | _ n ih =>
      by_cases h : n < 10
      · rw [digitsOf_of_lt h]
        simp [Text.ofDigits]
      · rw [digitsOf_of_le (by omega), Text.ofDigits_append, ih _ (by omega)]
        simp only [Text.ofDigits, List.foldl_cons, List.foldl_nil]
        omega

theorem wellFormed_ofNat (n : Nat) : (ofNat n).WellFormed where
  whole := areDigits_digitsOf n
  leading h := by
    show digitsOf n = [0]
    rw [(head?_digitsOf n).mp h]
    exact digitsOf_of_lt (by decide)
  fraction _ h := nomatch h
  exponent _ _ h := nomatch h

theorem toInt?_ofNat (n : Nat) : (ofNat n).toInt? = some (n : Int) := by
  simp [toInt?, ofNat, ofDigits_digitsOf]

end Numeral

/-! ### Quoted texts -/

/-- A code unit outside the surrogate pairs is a character of its own. -/
theorem assemble_code {n : Nat} (h : n < 0xd800) (units : List TextUnit) :
    assemble (.code n :: units) = (assemble units).map (Char.ofNat n :: ·) := by
  have hhigh : isHighHalf n = false := by simp [isHighHalf]; omega
  have hlow : isLowHalf n = false := by simp [isLowHalf]; omega
  rcases units with _ | ⟨c | m, rest⟩ <;> simp [assemble, hhigh, hlow]

/-- A one-letter escape is read as its character. -/
theorem readUnits_escaped {e c : Char} (hu : e ≠ 'u') (h : escaped? e = some c)
    (rest : List Char) : readUnits ('\\' :: e :: rest)
      = (readUnits rest).map fun (units, rest) => (.char c :: units, rest) := by
  rw [readUnits]
  · simp only [h]
    cases readUnits rest <;> rfl
  · intro _ _ _ _ _ he
    exact absurd he hu

/-- An escaped code unit is read as such. -/
theorem readUnits_code {a b c d : Char} {n : Nat} (h : codeUnit? [a, b, c, d] = some n)
    (rest : List Char) : readUnits ('\\' :: 'u' :: a :: b :: c :: d :: rest)
      = (readUnits rest).map fun (units, rest) => (.code n :: units, rest) := by
  rw [readUnits]
  simp only [h]
  cases readUnits rest <;> rfl

/-- Any other character stands for itself. -/
theorem readUnits_plain {c : Char} (hquote : c ≠ '"') (hback : c ≠ '\\') (h : ¬c.toNat < 32)
    (rest : List Char) : readUnits (c :: rest)
      = (readUnits rest).map fun (units, rest) => (.char c :: units, rest) := by
  rw [readUnits]
  · rw [if_neg h]
    cases readUnits rest <;> rfl
  · exact hquote
  · exact fun _ _ _ _ _ h _ => hback h
  · exact fun _ _ h _ => hback h

/-- A control character's escape has its code. -/
theorem exists_controlDigits {n : Nat} (h : n < 32) : ∃ a b,
    (Text.fixedDigits 16 2 n).map Nat.digitChar = [a, b] ∧ codeUnit? ['0', '0', a, b] = some n := by
  have hhigh := Text.hexValue?_digitChar (show n / 16 < 16 by omega)
  have hlow := Text.hexValue?_digitChar (show n % 16 < 16 by omega)
  have hzero : Text.hexValue? '0' = some 0 := rfl
  refine ⟨Nat.digitChar (n / 16), Nat.digitChar (n % 16), ?_, ?_⟩
  · simp [Text.fixedDigits, Nat.mod_eq_of_lt (show n / 16 < 16 by omega)]
  · simp only [codeUnit?, List.mapM_cons, List.mapM_nil, hhigh, hlow, hzero]
    show some (Text.ofDigits 16 0 [0, 0, n / 16, n % 16]) = some n
    simp only [Text.ofDigits, List.foldl_cons, List.foldl_nil, Option.some.injEq]
    omega

/-- A character is written as one unit, which stands for it. -/
theorem exists_unit (c : Char) : ∃ unit,
    (∀ rest, readUnits (escape c ++ rest)
      = (readUnits rest).map fun (units, rest) => (unit :: units, rest)) ∧
    ∀ units, assemble (unit :: units) = (assemble units).map (c :: ·) := by
  have short : ∀ {e : Char}, e ≠ 'u' → escaped? e = some c → escape c = ['\\', e] → ∃ unit,
      (∀ rest, readUnits (escape c ++ rest)
        = (readUnits rest).map fun (units, rest) => (unit :: units, rest)) ∧
      ∀ units, assemble (unit :: units) = (assemble units).map (c :: ·) := by
    intro e hu he hc
    exact ⟨.char c, fun rest => by rw [hc]; exact readUnits_escaped hu he rest, fun _ => rfl⟩
  by_cases hshort : c ∈ ['"', '\\', '\n', '\t', '\r', '\x08', '\x0c']
  · simp only [List.mem_cons, List.not_mem_nil, or_false] at hshort
    rcases hshort with rfl | rfl | rfl | rfl | rfl | rfl | rfl
    · exact short (e := '"') (by decide) rfl rfl
    · exact short (e := '\\') (by decide) rfl rfl
    · exact short (e := 'n') (by decide) rfl rfl
    · exact short (e := 't') (by decide) rfl rfl
    · exact short (e := 'r') (by decide) rfl rfl
    · exact short (e := 'b') (by decide) rfl rfl
    · exact short (e := 'f') (by decide) rfl rfl
  · simp only [List.mem_cons, List.not_mem_nil, or_false, not_or] at hshort
    obtain ⟨hquote, hback, hn, ht, hr, hb, hf⟩ := hshort
    unfold escape
    rw [if_neg hquote, if_neg hback, if_neg hn, if_neg ht, if_neg hr, if_neg hb, if_neg hf]
    by_cases hcontrol : c.toNat < 32
    · rw [if_pos hcontrol]
      obtain ⟨a, b, hdigits, hcode⟩ := exists_controlDigits hcontrol
      rw [hdigits]
      refine ⟨.code c.toNat, readUnits_code hcode, fun units => ?_⟩
      rw [assemble_code (by omega), Char.ofNat_toNat]
    · rw [if_neg hcontrol]
      exact ⟨.char c, readUnits_plain hquote hback hcontrol, fun _ => rfl⟩

theorem exists_units (cs : List Char) (rest : List Char) : ∃ units,
    readUnits (cs.flatMap escape ++ '"' :: rest) = some (units, rest) ∧
      assemble units = some cs := by
  induction cs with
  | nil => exact ⟨[], by simp [readUnits], rfl⟩
  | cons c cs ih =>
      obtain ⟨units, hread, hassemble⟩ := ih
      obtain ⟨unit, hunit, hc⟩ := exists_unit c
      refine ⟨unit :: units, ?_, ?_⟩
      · rw [List.flatMap_cons, List.append_assoc, hunit, hread]
        rfl
      · rw [hc, hassemble]
        rfl

/-- **A quoted text reads back**, whatever characters it has. -/
theorem readQuoted_quote (s : Option String) (rest : List Char) : ∃ body,
    quote s ++ rest = '"' :: body ∧ readQuoted body = some (s, rest) := by
  cases s with
  | none =>
      have hcode : codeUnit? ['d', '8', '0', '0'] = some 0xd800 := by decide
      have hquote : quote none = ['"', '\\', 'u', 'd', '8', '0', '0', '"'] := by
        unfold quote
        rfl
      refine ⟨'\\' :: 'u' :: 'd' :: '8' :: '0' :: '0' :: '"' :: rest, by rw [hquote]; rfl, ?_⟩
      rw [readQuoted, readUnits_code hcode, readUnits]
      rfl
  | some s =>
      obtain ⟨units, hread, hassemble⟩ := exists_units s.toList rest
      have hquote : quote (some s) = '"' :: s.toList.flatMap escape ++ ['"'] := by
        unfold quote
        rfl
      refine ⟨s.toList.flatMap escape ++ '"' :: rest, by rw [hquote]; simp, ?_⟩
      simp [readQuoted, hread, hassemble]

/-! ### Values -/

mutual

/-- Every numeral in the value is well-formed. -/
def WellFormed : Json → Prop
  | .number n => n.WellFormed
  | .array items => WellFormedItems items
  | .object members => WellFormedMembers members
  | .null | .bool _ | .quoted _ => True

/-- Every numeral in the items is well-formed. -/
def WellFormedItems : List Json → Prop
  | [] => True
  | item :: rest => item.WellFormed ∧ WellFormedItems rest

/-- Every numeral in the members is well-formed. -/
def WellFormedMembers : List (Option String × Json) → Prop
  | [] => True
  | (_, value) :: rest => value.WellFormed ∧ WellFormedMembers rest

end

theorem skip_cons {c : Char} (h : isSpace c = false) (cs : List Char) :
    skip (c :: cs) = c :: cs := by
  simp [skip, h]

theorem exists_numeral_head {n : Numeral} (h : n.WellFormed) : ∃ c cs, n.chars = c :: cs ∧
    (c = '-' ∨ ∃ d < 10, c = Nat.digitChar d) := by
  rw [Numeral.chars_eq]
  obtain ⟨negative, whole, fraction, exponent⟩ := n
  cases negative with
  | true => exact ⟨'-', _, rfl, .inl rfl⟩
  | false =>
      obtain ⟨hne, hlt⟩ := h.whole
      cases whole with
      | nil => exact absurd rfl hne
      | cons d ds => exact ⟨Nat.digitChar d, _, rfl, .inr ⟨d, hlt d (by simp), rfl⟩⟩

/-- What begins a numeral begins no other value, ends no array and is no blank. -/
theorem numeral_head_ne {c : Char} (h : c = '-' ∨ ∃ d < 10, c = Nat.digitChar d) :
    isSpace c = false ∧ c ≠ ']' ∧ c ∉ ['"', '[', '{', 'n', 't', 'f'] := by
  rcases h with rfl | ⟨d, hd, rfl⟩
  · decide
  · interval_cases d <;> decide

/-- A value's text begins with neither a blank nor the end of an array. -/
theorem exists_chars_head {j : Json} (h : j.WellFormed) : ∃ c cs, j.chars = c :: cs ∧
    isSpace c = false ∧ c ≠ ']' := by
  cases j with
  | null => exact ⟨_, _, rfl, rfl, by decide⟩
  | bool b =>
      cases b with
      | true => exact ⟨_, _, rfl, rfl, by decide⟩
      | false => exact ⟨_, _, rfl, rfl, by decide⟩
  | number n =>
      obtain ⟨c, cs, hchars, hc⟩ := exists_numeral_head (by simpa only [WellFormed] using h)
      obtain ⟨hspace, hend, -⟩ := numeral_head_ne hc
      exact ⟨c, cs, by simpa only [chars] using hchars, hspace, hend⟩
  | quoted s =>
      obtain ⟨body, hbody, -⟩ := readQuoted_quote s []
      rw [List.append_nil] at hbody
      exact ⟨'"', body, by simpa only [chars] using hbody, rfl, by decide⟩
  | array items =>
      cases items with
      | nil => exact ⟨_, _, by simp only [chars]; rfl, rfl, by decide⟩
      | cons item items => exact ⟨_, _, by simp only [chars]; rfl, rfl, by decide⟩
  | object members =>
      rcases members with _ | ⟨⟨name, value⟩, members⟩
      · exact ⟨_, _, by simp only [chars]; rfl, rfl, by decide⟩
      · exact ⟨_, _, by simp only [chars]; rfl, rfl, by decide⟩

theorem readValue_number {n : Numeral} (h : n.WellFormed) (fuel : Nat) {rest : List Char}
    (hrest : NoNumeral rest) :
    readValue (fuel + 1) (n.chars ++ rest) = some (.number n, rest) := by
  have hread := readNumeral_chars h hrest
  obtain ⟨c, cs, hchars, hc⟩ := exists_numeral_head h
  obtain ⟨hspace, -, hne⟩ := numeral_head_ne hc
  simp only [List.mem_cons, List.not_mem_nil, or_false, not_or] at hne
  rw [hchars, List.cons_append] at hread ⊢
  simp only [readValue, skip_cons hspace]
  split <;> simp_all

theorem readValue_quoted (fuel : Nat) (cs : List Char) : readValue (fuel + 1) ('"' :: cs)
    = (readQuoted cs).map fun (s, rest) => (.quoted s, rest) := by
  rw [readValue, skip_cons (by decide)]
  rfl

/-- An array that does not end at once has items. -/
theorem readValue_array (fuel : Nat) {c : Char} {cs : List Char} (hspace : isSpace c = false)
    (hc : c ≠ ']') : readValue (fuel + 1) ('[' :: c :: cs)
      = (readItems fuel (c :: cs)).map fun (items, rest) => (.array items, rest) := by
  rw [readValue, skip_cons (by decide)]
  simp only [skip_cons hspace]
  split
  · rename_i h
    exact absurd (List.cons.inj h).1 hc
  · rfl

/-- An object that begins with a name has members. -/
theorem readValue_object (fuel : Nat) (cs : List Char) : readValue (fuel + 1) ('{' :: '"' :: cs)
    = (readMembers fuel ('"' :: cs)).map fun (members, rest) => (.object members, rest) := by
  rw [readValue, skip_cons (by decide)]
  simp only [skip_cons (show isSpace '"' = false by decide)]
  rfl

mutual

/-- **A value reads back**, up to the first character that cannot go on with it. -/
theorem readValue_chars : ∀ (j : Json) (fuel : Nat) (rest : List Char), j.WellFormed →
    j.chars.length ≤ fuel → NoNumeral rest → readValue fuel (j.chars ++ rest) = some (j, rest)
  | j, 0, _, h, hfuel, _ => by
      obtain ⟨c, cs, hchars, -⟩ := exists_chars_head h
      rw [hchars] at hfuel
      simp at hfuel
  | .null, _ + 1, _, _, _, _ => rfl
  | .bool true, _ + 1, _, _, _, _ => rfl
  | .bool false, _ + 1, _, _, _, _ => rfl
  | .number n, fuel + 1, rest, h, _, hrest => by
      simp only [WellFormed] at h
      simpa only [chars] using readValue_number h fuel hrest
  | .quoted s, fuel + 1, rest, _, _, _ => by
      obtain ⟨body, hbody, hread⟩ := readQuoted_quote s rest
      rw [chars, hbody, readValue_quoted, hread]
      rfl
  | .array [], fuel + 1, rest, _, _, _ => by simp [chars, readValue, skip, isSpace]
  | .array (item :: items), fuel + 1, rest, h, hfuel, _ => by
      simp only [WellFormed, WellFormedItems] at h
      simp only [chars, List.length_cons, List.length_append] at hfuel
      obtain ⟨c, cs, hchars, hspace, hc⟩ := exists_chars_head h.1
      have hitems := readItems_chars item items fuel rest h.1 h.2 (by omega)
      rw [hchars] at hitems
      simp only [chars, hchars, List.cons_append, List.append_assoc] at hitems ⊢
      rw [readValue_array fuel hspace hc, hitems]
      rfl
  | .object [], fuel + 1, rest, _, _, _ => by simp [chars, readValue, skip, isSpace]
  | .object ((name, value) :: members), fuel + 1, rest, h, hfuel, _ => by
      simp only [WellFormed, WellFormedMembers] at h
      simp only [chars, List.length_cons, List.length_append] at hfuel
      obtain ⟨body, hbody, -⟩ :=
        readQuoted_quote name (':' :: (value.chars ++ (memberChars members ++ rest)))
      have hmembers := readMembers_chars name value members fuel rest h.1 h.2 (by omega)
      rw [hbody] at hmembers
      simp only [chars, List.cons_append, List.append_assoc]
      rw [hbody, readValue_object, hmembers]
      rfl

theorem readItems_chars : ∀ (item : Json) (items : List Json) (fuel : Nat) (rest : List Char),
    item.WellFormed → WellFormedItems items →
    item.chars.length + (itemChars items).length ≤ fuel →
    readItems fuel (item.chars ++ (itemChars items ++ rest)) = some (item :: items, rest)
  | _, items, 0, _, _, _, hfuel => by cases items <;> simp [itemChars] at hfuel
  | item, [], fuel + 1, rest, h, _, hfuel => by
      simp only [itemChars, List.length_cons, List.length_nil] at hfuel
      have hitem := readValue_chars item fuel (']' :: rest) h (by omega)
        (noNumeral_cons (.inr (.inl rfl)))
      simp [readItems, itemChars, hitem, skip, isSpace]
  | item, next :: items, fuel + 1, rest, h, hs, hfuel => by
      simp only [WellFormedItems] at hs
      simp only [itemChars, List.length_cons, List.length_append] at hfuel
      have hitem := readValue_chars item fuel (',' :: (next.chars ++ (itemChars items ++ rest))) h
        (by omega) (noNumeral_cons (.inl rfl))
      have hitems := readItems_chars next items fuel rest hs.1 hs.2 (by omega)
      simp [readItems, itemChars, hitem, skip, isSpace, hitems]

theorem readMembers_chars : ∀ (name : Option String) (value : Json)
    (members : List (Option String × Json)) (fuel : Nat) (rest : List Char),
    value.WellFormed → WellFormedMembers members →
    (quote name).length + value.chars.length + (memberChars members).length ≤ fuel →
    readMembers fuel (quote name ++ ':' :: (value.chars ++ (memberChars members ++ rest)))
      = some ((name, value) :: members, rest)
  | _, _, members, 0, _, _, _, hfuel => by
      rcases members with _ | ⟨⟨_, _⟩, _⟩ <;> simp [memberChars] at hfuel
  | name, value, [], fuel + 1, rest, h, _, hfuel => by
      simp only [memberChars, List.length_cons, List.length_nil] at hfuel
      obtain ⟨body, hbody, hname⟩ := readQuoted_quote name (':' :: (value.chars ++ '}' :: rest))
      have hvalue := readValue_chars value fuel ('}' :: rest) h (by omega)
        (noNumeral_cons (.inr (.inr rfl)))
      simp only [memberChars, List.cons_append, List.nil_append]
      rw [hbody, readMembers, skip_cons (by decide)]
      simp [hname, hvalue, skip, isSpace]
  | name, value, (next, value') :: members, fuel + 1, rest, h, hs, hfuel => by
      simp only [WellFormedMembers] at hs
      simp only [memberChars, List.length_cons, List.length_append] at hfuel
      obtain ⟨body, hbody, hname⟩ := readQuoted_quote name (':' :: (value.chars ++
        ',' :: (quote next ++ ':' :: (value'.chars ++ (memberChars members ++ rest)))))
      have hvalue := readValue_chars value fuel
        (',' :: (quote next ++ ':' :: (value'.chars ++ (memberChars members ++ rest)))) h
        (by omega) (noNumeral_cons (.inl rfl))
      have hmembers := readMembers_chars next value' members fuel rest hs.1 hs.2 (by omega)
      simp only [memberChars, List.cons_append, List.append_assoc]
      rw [hbody, readMembers, skip_cons (by decide)]
      simp [hname, hvalue, skip, isSpace, hmembers]

end

/-- **What is written reads back.** -/
theorem ofText?_text {j : Json} (h : j.WellFormed) : ofText? j.text = some j := by
  have hread := readValue_chars j (2 * j.chars.length + 2) [] h (by omega) noNumeral_nil
  rw [List.append_nil] at hread
  have htext : j.text.toList = j.chars := String.toList_ofList
  unfold ofText?
  simp only [htext, hread, Option.bind_eq_bind, Option.bind_some]
  rfl

end TypedRecords.Json
