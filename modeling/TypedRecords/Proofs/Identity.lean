/-
Identities and their texts.

The canonical text is the number's 32 hexadecimal digits with hyphens at fixed places.  Digits read
back, so canonical texts are equal only for equal identities; of two numbers the smaller has the
smaller digit where their digits first differ, so canonical texts are ordered as the identities are.
Reading looks through letter case, braces and blanks around, and a canonical text written with any
of them stands for its identity.
-/
import TypedRecords.Proofs.Text.Digits
import TypedRecords.Proofs.Text.Blank
import TypedRecords.Identity

namespace TypedRecords

/-! ### Letter case -/

namespace Text

theorem char_le_iff (c d : Char) : c ≤ d ↔ c.toNat ≤ d.toNat := Iff.rfl

/-- A lower-case letter stands 32 places behind its upper-case one. -/
theorem toNat_toLower (c : Char) :
    c.toLower.toNat = if 65 ≤ c.toNat ∧ c.toNat ≤ 90 then c.toNat + 32 else c.toNat := by
  unfold Char.toLower
  split
  · rename_i h
    have hlow : 65 ≤ c.toNat := h.1
    have hhigh : c.val.toNat ≤ 90 := h.2
    rw [if_pos ⟨hlow, hhigh⟩]
    show (c.val + 32).toNat = c.val.toNat + 32
    rw [UInt32.toNat_add]
    show (c.val.toNat + 32) % 2 ^ 32 = c.val.toNat + 32
    omega
  · rename_i h
    exact (if_neg h).symm

theorem isBlank_toLower (c : Char) : isBlank c.toLower = isBlank c := by
  unfold isBlank
  rw [toNat_toLower]
  split
  · rename_i h
    rw [Bool.eq_iff_iff]
    simp only [blankRanges, List.any_cons, List.any_nil, Bool.or_false, Bool.or_eq_true,
      Bool.and_eq_true, decide_eq_true_eq]
    omega
  · rfl

theorem hexValue?_toLower (c : Char) : hexValue? c.toLower = hexValue? c := by
  unfold hexValue?
  simp only [Char.isDigit_iff_toNat, char_le_iff, toNat_toLower]
  by_cases h : 65 ≤ c.toNat ∧ c.toNat ≤ 90
  · rw [if_pos h]
    simp only [Char.reduceToNat]
    grind
  · rw [if_neg h]

/-- Only letters change with the case. -/
theorem eq_of_toLower_eq {c d : Char} (hd : d.toNat < 97) (h : c.toLower = d) : c = d := by
  have hnat := toNat_toLower c
  rw [h] at hnat
  split at hnat
  · omega
  · exact Char.toNat_inj.mp hnat.symm

/-! ### Digits in order -/

theorem digitChar_lt_iff {d e : Nat} (hd : d < 16) (he : e < 16) :
    Nat.digitChar d < Nat.digitChar e ↔ d < e := by
  have hall : ∀ d < 16, ∀ e < 16, Nat.digitChar d < Nat.digitChar e ↔ d < e := by decide
  exact hall d hd e he

/-- Two texts differ first in their fronts, or behind a common front. -/
theorem append_lt_append_iff {front front' rest rest' : List Char}
    (h : front.length = front'.length) :
    front ++ rest < front' ++ rest' ↔ front < front' ∨ front = front' ∧ rest < rest' := by
  induction front generalizing front' with
  | nil =>
      obtain rfl : front' = [] := List.eq_nil_of_length_eq_zero h.symm
      simp
  | cons c front ih =>
      cases front' with
      | nil => cases h
      | cons c' front' =>
          rw [List.cons_append, List.cons_append, List.cons_lt_cons_iff, List.cons_lt_cons_iff,
            ih (Nat.succ.inj h), List.cons.injEq]
          tauto

variable {width m n : Nat}

/-- Hexadecimal digits of one width are those of one number only. -/
theorem hexDigits_inj (hm : m < 16 ^ width) (hn : n < 16 ^ width) :
    (fixedDigits 16 width m).map Nat.digitChar = (fixedDigits 16 width n).map Nat.digitChar
      ↔ m = n := by
  have hread (k : Nat) (hk : k < 16 ^ width) :
      (((fixedDigits 16 width k).map Nat.digitChar).mapM hexValue?).map (ofDigits 16 0)
        = some k := by
    rw [mapM_hexValue?, Option.map_some, ofDigits_fixedDigits, Nat.mod_eq_of_lt hk]
  constructor
  · intro h
    have hmn := hread m hm
    rw [h, hread n hn] at hmn
    exact (Option.some.inj hmn).symm
  · rintro rfl
    rfl

/-- Hexadecimal digits of one width are in order where their numbers are. -/
theorem hexDigits_lt_iff (hm : m < 16 ^ width) (hn : n < 16 ^ width) :
    (fixedDigits 16 width m).map Nat.digitChar < (fixedDigits 16 width n).map Nat.digitChar
      ↔ m < n := by
  induction width generalizing m n with
  | zero =>
      have : m = n := by simp at hm hn; omega
      simp [fixedDigits, this]
  | succ width ih =>
      rw [Nat.pow_succ] at hm hn
      have hm' : m / 16 < 16 ^ width := Nat.div_lt_of_lt_mul (by omega)
      have hn' : n / 16 < 16 ^ width := Nat.div_lt_of_lt_mul (by omega)
      have hlast : [Nat.digitChar (m % 16)] < [Nat.digitChar (n % 16)] ↔ m % 16 < n % 16 := by
        rw [List.cons_lt_cons_iff,
          digitChar_lt_iff (Nat.mod_lt _ (by decide)) (Nat.mod_lt _ (by decide))]
        simp
      rw [fixedDigits, fixedDigits, List.map_append, List.map_append,
        append_lt_append_iff (by simp [fixedDigits_length]), ih hm' hn', hexDigits_inj hm' hn',
        List.map_singleton, List.map_singleton, hlast]
      omega

end Text

namespace Identity

open Text

/-! ### Groups of digits -/

/-- The digits of a hyphenated text. -/
def unhyphenate (cs : List Char) : List Char :=
  cs.take 8 ++ (cs.drop 9).take 4 ++ (cs.drop 14).take 4 ++ (cs.drop 19).take 4 ++ cs.drop 24

/-- Five groups of digits, the lengths of all but the last being fixed. -/
structure Groups (cs a b c d e : List Char) : Prop where
  eq_append : cs = a ++ (b ++ (c ++ (d ++ e)))
  length_first : a.length = 8
  length_second : b.length = 4
  length_third : c.length = 4
  length_fourth : d.length = 4

variable {cs ds a b c d e : List Char}

theorem exists_groups (h : cs.length = 32) : ∃ a b c d e, Groups cs a b c d e := by
  refine ⟨cs.take 8, (cs.drop 8).take 4, (cs.drop 12).take 4, (cs.drop 16).take 4, cs.drop 20,
    ?_, ?_, ?_, ?_, ?_⟩
  · rw [show cs.drop 20 = (cs.drop 16).drop 4 by rw [List.drop_drop], List.take_append_drop,
      show cs.drop 16 = (cs.drop 12).drop 4 by rw [List.drop_drop], List.take_append_drop,
      show cs.drop 12 = (cs.drop 8).drop 4 by rw [List.drop_drop], List.take_append_drop,
      List.take_append_drop]
  all_goals simp [h]

theorem Groups.hyphenate_eq (h : Groups cs a b c d e) :
    hyphenate cs = a ++ '-' :: (b ++ '-' :: (c ++ '-' :: (d ++ '-' :: e))) := by
  obtain ⟨rfl, ha, hb, hc, hd⟩ := h
  simp [hyphenate, List.drop_append, ha, hb, hc, hd, List.drop_of_length_le]

theorem unhyphenate_hyphenate (h : cs.length = 32) : unhyphenate (hyphenate cs) = cs := by
  obtain ⟨a, b, c, d, e, hg⟩ := exists_groups h
  rw [hg.hyphenate_eq]
  obtain ⟨rfl, ha, hb, hc, hd⟩ := hg
  simp [unhyphenate, List.drop_append, ha, hb, hc, hd, List.drop_of_length_le]

/-- Hyphens at fixed places keep the order. -/
theorem hyphenate_lt_iff (hcs : cs.length = 32) (hds : ds.length = 32) :
    hyphenate cs < hyphenate ds ↔ cs < ds := by
  obtain ⟨a, b, c, d, e, hg⟩ := exists_groups hcs
  obtain ⟨a', b', c', d', e', hg'⟩ := exists_groups hds
  rw [hg.hyphenate_eq, hg'.hyphenate_eq]
  obtain ⟨rfl, ha, hb, hc, hd⟩ := hg
  obtain ⟨rfl, ha', hb', hc', hd'⟩ := hg'
  simp [append_lt_append_iff, ha, hb, hc, hd, ha', hb', hc', hd']

theorem length_hyphenate (h : cs.length = 32) : (hyphenate cs).length = 36 := by
  simp [hyphenate, h]

theorem hyphens_hyphenate (h : cs.length = 32) {i : Nat} (hi : i ∈ [8, 13, 18, 23]) :
    (hyphenate cs)[i]? = some '-' := by
  simp only [List.mem_cons, List.not_mem_nil, or_false] at hi
  rcases hi with rfl | rfl | rfl | rfl <;> simp [hyphenate, h]

theorem eq_hyphen_or_mem_of_mem_hyphenate {ch : Char} (h : ch ∈ hyphenate cs) :
    ch = '-' ∨ ch ∈ cs := by
  simp only [hyphenate, List.mem_append, List.mem_cons] at h
  have hdrop {i j : Nat} (hmem : ch ∈ (cs.drop i).take j) : ch ∈ cs :=
    List.mem_of_mem_drop (List.mem_of_mem_take hmem)
  rcases h with (((h | h | h) | h | h) | h | h) | h | h
  · exact .inr (List.mem_of_mem_take h)
  all_goals first
    | exact .inl h
    | exact .inr (hdrop h)
    | exact .inr (List.mem_of_mem_drop h)

/-! ### The canonical text -/

variable (id : Identity)

theorem length_hexDigits : id.hexDigits.length = 32 := by
  simp [hexDigits, fixedDigits_length]

theorem toNat_lt_pow (id : Identity) : id.toNat < 16 ^ 32 := by
  have h := id.toNat_lt
  omega

theorem toList_canonical : id.canonical.toList = hyphenate id.hexDigits :=
  String.toList_ofList

theorem toNat_inj {a b : Identity} : a.toNat = b.toNat ↔ a = b := by
  cases a
  cases b
  simp

/-- The digits of an identity are its own. -/
theorem canonical_inj {a b : Identity} : a.canonical = b.canonical ↔ a = b := by
  constructor
  · intro h
    have hlist := congrArg (unhyphenate ·.toList) h
    simp only [toList_canonical, unhyphenate_hyphenate (length_hexDigits _)] at hlist
    exact toNat_inj.mp ((hexDigits_inj a.toNat_lt_pow b.toNat_lt_pow).mp hlist)
  · rintro rfl
    rfl

theorem canonical_lt_iff {a b : Identity} : a.canonical < b.canonical ↔ a.toNat < b.toNat := by
  rw [show a.canonical < b.canonical ↔ a.canonical.toList < b.canonical.toList from Iff.rfl,
    toList_canonical, toList_canonical,
    hyphenate_lt_iff a.length_hexDigits b.length_hexDigits]
  exact hexDigits_lt_iff a.toNat_lt_pow b.toNat_lt_pow

/-- The order of identities is that of their canonical texts. -/
theorem compare_eq_compare_canonical (a b : Identity) :
    a.compare b = Ord.compare a.canonical b.canonical := by
  have htexts (s t : String) : Ord.compare s t = compareOfLessAndEq s t := rfl
  have hnumbers (m n : Nat) : Ord.compare m n = compareOfLessAndEq m n := rfl
  rw [compare, hnumbers, htexts]
  simp only [compareOfLessAndEq, canonical_lt_iff, canonical_inj, toNat_inj]

/-- A canonical text has a hyphen or a digit at every place. -/
theorem eq_hyphen_or_digit_of_mem_canonical {ch : Char} (h : ch ∈ id.canonical.toList) :
    ch = '-' ∨ ∃ d < 16, ch = Nat.digitChar d := by
  rw [toList_canonical] at h
  rcases eq_hyphen_or_mem_of_mem_hyphenate h with h | h
  · exact .inl h
  · obtain ⟨d, hd, rfl⟩ := List.mem_map.mp h
    exact .inr ⟨d, lt_of_mem_fixedDigits (by decide) hd, rfl⟩

/-! ### Reading a canonical text in any case -/

/-- The text is an identity's canonical one, letters being of either case. -/
def Spells (body : List Char) (id : Identity) : Prop :=
  body.map Char.toLower = id.canonical.toList

variable {body : List Char} {id}

theorem spells_canonical (id : Identity) : Spells id.canonical.toList id := by
  have hall : ∀ d < 16, (Nat.digitChar d).toLower = Nat.digitChar d := by decide
  refine (List.map_congr_left fun ch hch => ?_).trans (List.map_id _)
  rcases id.eq_hyphen_or_digit_of_mem_canonical hch with rfl | ⟨d, hd, rfl⟩
  · rfl
  · exact hall d hd

namespace Spells

theorem length_eq (h : Spells body id) : body.length = 36 := by
  rw [← List.length_map Char.toLower, h, toList_canonical,
    length_hyphenate id.length_hexDigits]

/-- Every character is a hyphen or a digit in some case. -/
theorem of_mem (h : Spells body id) {ch : Char} (hch : ch ∈ body) :
    ch.toLower = '-' ∨ ∃ d < 16, ch.toLower = Nat.digitChar d :=
  id.eq_hyphen_or_digit_of_mem_canonical (h ▸ List.mem_map_of_mem hch)

theorem not_isBlank (h : Spells body id) {ch : Char} (hch : ch ∈ body) : isBlank ch = false := by
  have hall : ∀ d < 16, isBlank (Nat.digitChar d) = false := by decide
  rw [← isBlank_toLower]
  rcases h.of_mem hch with heq | ⟨d, hd, heq⟩
  · rw [heq]
    decide
  · rw [heq]
    exact hall d hd

/-- Braces are not among the characters. -/
theorem ne_brace (h : Spells body id) {ch : Char} (hch : ch ∈ body) : ch ≠ '{' ∧ ch ≠ '}' := by
  have hall : ∀ d < 16, Nat.digitChar d ≠ '{' ∧ Nat.digitChar d ≠ '}' := by decide
  refine ⟨?_, ?_⟩ <;> rintro rfl <;> rcases h.of_mem hch with heq | ⟨d, hd, heq⟩
  · exact absurd heq (by decide)
  · exact (hall d hd).1 heq.symm
  · exact absurd heq (by decide)
  · exact (hall d hd).2 heq.symm

theorem hyphen_at (h : Spells body id) {i : Nat} (hi : i ∈ [8, 13, 18, 23]) :
    body[i]? = some '-' := by
  have hmap : (body.map Char.toLower)[i]? = some '-' := by
    rw [h, toList_canonical, hyphens_hyphenate id.length_hexDigits hi]
  rw [List.getElem?_map, Option.map_eq_some_iff] at hmap
  obtain ⟨ch, hch, hlower⟩ := hmap
  rw [hch, eq_of_toLower_eq (by decide) hlower]

theorem map_unhyphenate (h : Spells body id) :
    (unhyphenate body).map Char.toLower = id.hexDigits := by
  rw [← unhyphenate_hyphenate id.length_hexDigits, ← toList_canonical, ← h]
  simp [unhyphenate]

theorem ofHyphenated?_eq (h : Spells body id) : ofHyphenated? body = some id := by
  have hhyphens : [8, 13, 18, 23].all (fun i => body[i]? = some '-') = true :=
    List.all_eq_true.mpr fun i hi => decide_eq_true (h.hyphen_at hi)
  have hlength : (unhyphenate body).length = 32 := by
    rw [← List.length_map Char.toLower, h.map_unhyphenate, length_hexDigits]
  have hread : (unhyphenate body).mapM hexValue? = some (fixedDigits 16 32 id.toNat) := by
    rw [← funext hexValue?_toLower,
      show (fun ch : Char => hexValue? ch.toLower) = hexValue? ∘ Char.toLower from rfl,
      ← List.mapM_map, h.map_unhyphenate, hexDigits]
    exact mapM_hexValue? 32 id.toNat
  rw [ofHyphenated?, if_pos ⟨h.length_eq, hhyphens⟩]
  show ofHex? (unhyphenate body) = some id
  rw [ofHex?, if_neg (by simp [hlength]), hread]
  simp only [Option.bind_some, ofDigits_fixedDigits, Nat.mod_eq_of_lt id.toNat_lt_pow]
  rw [dif_pos id.toNat_lt]

theorem ofDigits?_eq (h : Spells body id) : ofDigits? body = some id := by
  have hplain : ofHex? body = none := by
    rw [ofHex?, if_pos (by simp [h.length_eq])]
  rw [ofDigits?, hplain, h.ofHyphenated?_eq]
  rfl

end Spells

/-! ### Reading what stands around it -/

/-- A canonical text in either case, with opening braces before it, closing braces after it and
blanks around them. -/
def Writes (s : String) (id : Identity) : Prop :=
  ∃ (lead body tail : List Char) (opened closed : Nat),
    s = String.ofList
      (lead ++ (List.replicate opened '{' ++ (body ++ List.replicate closed '}')) ++ tail) ∧
    (∀ ch ∈ lead, isBlank ch = true) ∧ (∀ ch ∈ tail, isBlank ch = true) ∧ Spells body id

theorem unwrap_eq_of_spells {lead tail : List Char} {opened closed : Nat}
    (hlead : ∀ ch ∈ lead, isBlank ch = true) (htail : ∀ ch ∈ tail, isBlank ch = true)
    (hbody : Spells body id) :
    unwrap (String.ofList
      (lead ++ (List.replicate opened '{' ++ (body ++ List.replicate closed '}')) ++ tail))
      = body := by
  have hcore : ∀ ch ∈ List.replicate opened '{' ++ (body ++ List.replicate closed '}'),
      isBlank ch = false := by
    intro ch hch
    rw [List.mem_append, List.mem_append, List.mem_replicate, List.mem_replicate] at hch
    rcases hch with ⟨-, rfl⟩ | hch | ⟨-, rfl⟩
    · decide
    · exact hbody.not_isBlank hch
    · decide
  have hopening : ∀ ch ∈ body ++ List.replicate closed '}', decide (ch = '{') = false := by
    intro ch hch
    rw [List.mem_append, List.mem_replicate] at hch
    rcases hch with hch | ⟨-, rfl⟩
    · exact decide_eq_false (hbody.ne_brace hch).1
    · decide
  rw [unwrap, toList_trim_surrounded hlead hcore htail,
    dropWhile_append_eq (fun ch hch => decide_eq_true (List.eq_of_mem_replicate hch)) hopening]
  exact dropEndWhile_append_eq (fun ch hch => decide_eq_false (hbody.ne_brace hch).2)
    fun ch hch => decide_eq_true (List.eq_of_mem_replicate hch)

theorem ofText?_of_writes {s : String} (h : Writes s id) : ofText? s = some id := by
  obtain ⟨lead, body, tail, opened, closed, rfl, hlead, htail, hbody⟩ := h
  rw [ofText?, unwrap_eq_of_spells hlead htail hbody, hbody.ofDigits?_eq]

theorem writes_canonical (id : Identity) : Writes id.canonical id :=
  ⟨[], id.canonical.toList, [], 0, 0, by simp, by simp, by simp, spells_canonical id⟩

/-- **The text of an identity is canonical**: every way of writing it reads as that identity, two
identities share it only when they are equal, and texts are ordered as identities are. -/
theorem text_is_canonical (id : Identity) :
    (∀ s, Writes s id → ofText? s = some id ∧ id.matchesText s = true) ∧
    (∀ other : Identity, id.canonical = other.canonical ↔ id = other) ∧
    (∀ other : Identity, id.compare other = Ord.compare id.canonical other.canonical) := by
  refine ⟨fun s hs => ?_, fun other => canonical_inj, compare_eq_compare_canonical id⟩
  have hread := ofText?_of_writes hs
  exact ⟨hread, decide_eq_true hread⟩

theorem text_is_canonical_in_braces :
    let id : Identity := ⟨0x6f9619ff8b86d011b42d00c04fc964ff, by decide⟩
    let s := " \x7b\x7b6F9619ff-8B86-d011-b42d-00c04fc964FF\x7d\t"
    Writes s id ∧ ofText? s = some id ∧ id.matchesText s = true := by
  intro id s
  have hs : Writes s id :=
    ⟨[' '], "6F9619ff-8B86-d011-b42d-00c04fc964FF".toList, ['\t'], 2, 1, by decide +kernel,
      List.forall_mem_singleton.mpr rfl, List.forall_mem_singleton.mpr rfl,
      by unfold Spells; decide +kernel⟩
  exact ⟨hs, (text_is_canonical id).1 s hs⟩

end Identity

end TypedRecords
