/-
Which links share data.

An alias is a name with a number right behind it, and the names under it have it and a point in front.
So aliases tell the places of one entity apart, but not those of any two: a name may end in digits
that another one's number starts with, and a name with a point in it may itself be under an alias.
`Covers` is the one or the other.  Two links share an attribute only if one of them covers the other,
and then it has all that the other has.  Names without points that end in no digit are safe.
-/
import TypedRecords.Proofs.Mapping.Calls
import TypedRecords.Proofs.Mapping.JoinPlace

namespace TypedRecords

variable {a b c d key : String} {p q : Nat}

/-! ### Names and numbers -/

/-- Two ways to split one text: one of the first parts goes on in the other's second part. -/
theorem append_eq_append_iff {w x y z : String} :
    w ++ x = y ++ z ↔ (∃ t, y = w ++ t ∧ x = t ++ z) ∨ ∃ t, w = y ++ t ∧ z = t ++ x := by
  constructor
  · intro h
    have hlist := congrArg String.toList h
    rw [String.toList_append, String.toList_append, List.append_eq_append_iff] at hlist
    rcases hlist with ⟨t, hy, hx⟩ | ⟨t, hw, hz⟩
    · refine .inl ⟨String.ofList t, ?_, ?_⟩ <;> apply String.ext <;> simpa
    · refine .inr ⟨String.ofList t, ?_, ?_⟩ <;> apply String.ext <;> simpa
  · rintro (⟨t, rfl, rfl⟩ | ⟨t, rfl, rfl⟩)
    · exact String.append_assoc.symm
    · exact String.append_assoc

/-- The decimals of a number are digits. -/
theorem isDigit_of_mem_repr {n : Nat} {digit : Char} (h : digit ∈ (Nat.repr n).toList) :
    digit.isDigit = true := by
  rw [Nat.toList_repr] at h
  exact Nat.isDigit_of_mem_toDigits (by decide) (by decide) h

/-- One name goes on where another one ends, with the digits that the other's number has before its
own. -/
def RunsInto (c : String) (p : Nat) (d : String) (q : Nat) : Prop :=
  ∃ digits, c = d ++ digits ∧ Nat.repr q = digits ++ Nat.repr p

/-- Aliases are one only for names that run into numbers. -/
theorem joinAlias_eq_iff :
    joinAlias c p = joinAlias d q ↔ RunsInto c p d q ∨ RunsInto d q c p := by
  unfold joinAlias
  rw [append_eq_append_iff, or_comm]
  rfl

namespace Record

/-- A name is one of the join's. -/
def Under (joinName key : String) : Prop := (joinedName? joinName key).isSome = true

instance (joinName key : String) : Decidable (Under joinName key) :=
  inferInstanceAs (Decidable (_ = true))

theorem under_iff : Under a key ↔ ∃ path, key = a ++ "." ++ path := by
  unfold Under
  rw [Option.isSome_iff_exists]
  constructor
  · rintro ⟨name, h⟩
    obtain ⟨path, hkey, -⟩ := joinedName?_eq_some.mp h
    exact ⟨path, hkey⟩
  · rintro ⟨path, hkey⟩
    exact ⟨_, joinedName?_eq_some.mpr ⟨path, hkey, rfl⟩⟩

theorem Under.append (h : Under a b) (rest : String) : Under a (b ++ rest) := by
  obtain ⟨path, rfl⟩ := under_iff.mp h
  exact under_iff.mpr ⟨path ++ rest, String.append_assoc⟩

theorem Under.trans (hb : Under a b) (hkey : Under b key) : Under a key := by
  obtain ⟨path, rfl⟩ := under_iff.mp hkey
  exact (hb.append ".").append path

/-- A text that ends in a point, cut where no point follows, is cut at its end. -/
theorem eq_of_append_point {t : String} (h : a ++ "." = d ++ t) (ht : '.' ∉ t.toList) :
    d = a ++ "." := by
  rcases List.eq_nil_or_concat t.toList with hnil | ⟨init, last, hlast⟩
  · rw [h, String.toList_eq_nil_iff.mp hnil, String.append_empty]
  · exfalso
    have hlist := congrArg String.toList h
    rw [String.toList_append, String.toList_append, hlast, List.concat_eq_append,
      ← List.append_assoc] at hlist
    obtain ⟨-, hpoint⟩ := List.append_inj' hlist rfl
    have hpoint : '.' = last := List.singleton_inj.mp hpoint
    rw [hlast, List.concat_eq_append, ← hpoint] at ht
    exact ht (by simp)

/-- A point in an alias is a point in its name. -/
theorem under_of_joinAlias_eq {path : String} (h : joinAlias d q = a ++ "." ++ path) :
    Under a d := by
  unfold joinAlias at h
  rcases append_eq_append_iff.mp h with ⟨t, hname, hrepr⟩ | ⟨t, hd, -⟩
  · have hpoint : '.' ∉ t.toList := by
      intro hmem
      have hdigit : ('.').isDigit = true := isDigit_of_mem_repr (n := q) (by simp [hrepr, hmem])
      cases hdigit
    exact under_iff.mpr ⟨"", (eq_of_append_point hname hpoint).trans (String.append_empty).symm⟩
  · exact under_iff.mpr ⟨t, hd⟩

end Record

/-! ### One join's attributes among another's -/

/-- The alias of one join covers another one: the aliases are one, or the other's name is under it. -/
def Covers (c : String) (p : Nat) (d : String) (q : Nat) : Prop :=
  RunsInto c p d q ∨ RunsInto d q c p ∨ Record.Under (joinAlias c p) d

/-- A join that covers another one has the other's attributes. -/
theorem Covers.under (h : Covers c p d q) (hkey : Record.Under (joinAlias d q) key) :
    Record.Under (joinAlias c p) key := by
  rcases h with hruns | hruns | hunder
  · rw [joinAlias_eq_iff.mpr (.inl hruns)]
    exact hkey
  · rw [joinAlias_eq_iff.mpr (.inr hruns)]
    exact hkey
  · exact (hunder.append _).trans hkey

/-- An alias that has another one's as its beginning covers it. -/
theorem covers_of_append {t : String} (h : joinAlias d q ++ "." = joinAlias c p ++ "." ++ t) :
    Covers c p d q := by
  rcases append_eq_append_iff.mp h with ⟨x, halias, hpoint⟩ | ⟨x, halias, -⟩
  · have hlist := congrArg String.toList hpoint
    rw [String.toList_append] at hlist
    rcases List.singleton_eq_append_iff.mp hlist with ⟨hx, -⟩ | ⟨hx, -⟩
    · have hx : x = "" := String.toList_eq_nil_iff.mp hx
      subst hx
      have halias : joinAlias d q = joinAlias c p ++ "." ++ "" := by
        rw [halias, String.append_empty, String.append_empty]
      exact .inr (.inr (Record.under_of_joinAlias_eq halias))
    · have hx : x = "." := String.ext hx
      subst hx
      rw [String.append_left_inj, joinAlias_eq_iff] at halias
      rcases halias with hruns | hruns
      · exact .inl hruns
      · exact .inr (.inl hruns)
  · exact .inr (.inr (Record.under_of_joinAlias_eq halias))

/-- **Two joins have an attribute in common when one covers the other**, and then the attribute is any
of the other's. -/
theorem under_both_iff :
    Record.Under (joinAlias c p) key ∧ Record.Under (joinAlias d q) key ↔
      Covers c p d q ∧ Record.Under (joinAlias d q) key ∨
        Covers d q c p ∧ Record.Under (joinAlias c p) key := by
  constructor
  · rintro ⟨hc, hd⟩
    obtain ⟨x, hx⟩ := Record.under_iff.mp hc
    obtain ⟨y, hy⟩ := Record.under_iff.mp hd
    rcases append_eq_append_iff.mp (hx.symm.trans hy) with ⟨t, ht, -⟩ | ⟨t, ht, -⟩
    · exact .inl ⟨covers_of_append ht, hd⟩
    · exact .inr ⟨covers_of_append ht, hc⟩
  · rintro (⟨hcovers, hd⟩ | ⟨hcovers, hc⟩)
    · exact ⟨hcovers.under hd, hd⟩
    · exact ⟨hc, hcovers.under hc⟩

-- a name with a point in it is under an alias, be the numbers as they may
example : Covers "contact" 1 "contact1.x" 2 := .inr (.inr (by decide +kernel))

/-! ### Plain names -/

/-- A name without points that does not end in a digit. -/
def PlainName (name : String) : Prop :=
  '.' ∉ name.toList ∧ name.toList.getLast?.any Char.isDigit = false

instance (name : String) : Decidable (PlainName name) := inferInstanceAs (Decidable (_ ∧ _))

/-- A plain name runs into no number but its own. -/
theorem RunsInto.eq_of_plain (hplain : PlainName c) (h : RunsInto c p d q) : p = q := by
  obtain ⟨digits, hname, hrepr⟩ := h
  rcases List.eq_nil_or_concat digits.toList with hnil | ⟨init, last, hlast⟩
  · rw [String.toList_eq_nil_iff.mp hnil, String.empty_append] at hrepr
    have halias : joinAlias c p = joinAlias c q := congrArg (c ++ ·) hrepr.symm
    exact joinAlias_inj.mp halias
  · rw [List.concat_eq_append] at hlast
    have hdigit : last.isDigit = true := isDigit_of_mem_repr (n := q) (by simp [hrepr, hlast])
    have hnot := hplain.2
    simp [hname, hlast, hdigit] at hnot

theorem not_under_of_plain (hplain : PlainName d) : ¬Record.Under a d := by
  intro h
  obtain ⟨path, rfl⟩ := Record.under_iff.mp h
  exact hplain.1 (by simp)

/-- Joins of plain names at two places cover nothing of each other. -/
theorem Covers.eq_of_plain (hc : PlainName c) (hd : PlainName d) (h : Covers c p d q) : p = q := by
  rcases h with hruns | hruns | hunder
  · exact hruns.eq_of_plain hc
  · exact (hruns.eq_of_plain hd).symm
  · exact absurd hunder (not_under_of_plain hd)

/-- Joins of plain names at two places have two aliases. -/
theorem joinAlias_ne_of_plain (hc : PlainName c) (hd : PlainName d) (hpq : p ≠ q) :
    joinAlias c p ≠ joinAlias d q := by
  intro h
  rcases joinAlias_eq_iff.mp h with hruns | hruns
  · exact hpq (hruns.eq_of_plain hc)
  · exact hpq (hruns.eq_of_plain hd).symm

/-- Joins of plain names at two places have no attribute in common. -/
theorem not_under_both_of_plain (hc : PlainName c) (hd : PlainName d) (hpq : p ≠ q) :
    ¬(Record.Under (joinAlias c p) key ∧ Record.Under (joinAlias d q) key) := by
  intro h
  rcases under_both_iff.mp h with ⟨hcovers, -⟩ | ⟨hcovers, -⟩
  · exact hpq (hcovers.eq_of_plain hc hd)
  · exact hpq (hcovers.eq_of_plain hd hc).symm

namespace Mapping

variable {catalog : Catalog} {converters : Converters} {s : Schema} {record : Record}
  {f g : Field}

/-! ### The places of two fields -/

/-- Of two fields of a list one comes before the other, so the numbers of fields of a kind before them
differ. -/
theorem length_filter_ne {P : Field → Bool} {before after before' after' : List Field}
    (h : before ++ f :: after = before' ++ g :: after') (hne : f ≠ g) (hf : P f = true)
    (hg : P g = true) : (before.filter P).length ≠ (before'.filter P).length := by
  rcases List.append_eq_append_iff.mp h with ⟨mid, rfl, hrest⟩ | ⟨mid, rfl, hrest⟩
  · cases mid with
    | nil =>
        cases hrest
        exact absurd rfl hne
    | cons first mid =>
        cases hrest
        simp [hf]
  · cases mid with
    | nil =>
        cases hrest
        exact absurd rfl hne
    | cons first mid =>
        cases hrest
        simp [hg]

/-- The entity of a joined field is read from what a record has under the alias of a child at a
place. -/
structure DrawnAs (s : Schema) (converters : Converters) (record : Record) (f : Field)
    (child : String) (place : Nat) : Prop where
  joined : f.isJoined = true
  filled : ∃ before after slot linked source, s.fields = before ++ f :: after ∧
    place = met record before + 1 ∧
    filling s converters record place f = .ok (.link slot linked (some source)) ∧
    source.record = record.extract child place

theorem DrawnAs.mem_fields (h : DrawnAs s converters record f c p) : f ∈ s.fields := by
  obtain ⟨before, after, -, -, -, hsplit, -⟩ := h.filled
  simp [hsplit]

/-- The entity is one that the field may point at. -/
theorem DrawnAs.mem_targets (hb : s.Built) (h : DrawnAs s converters record f c p) :
    c ∈ f.targets := by
  obtain ⟨-, -, slot, linked, source, -, -, hfilling, hsource⟩ := h.filled
  obtain ⟨hlink, heager⟩ := Bool.and_eq_true_iff.mp h.joined
  obtain ⟨raw, value, -, -, -, hcontent⟩ := link_of_filling hfilling
  rcases content_cases hcontent with ⟨hlater, -⟩ | ⟨-, link, hfind, hextract⟩
  · simp [hlater] at heager
  · have hchild : link.childEntity = c :=
      congrArg Record.entity (hextract.symm.trans hsource)
    rw [← hchild]
    exact hb.childEntity_mem_targets h.mem_fields hlink hfind

/-- Two fields draw from two places. -/
theorem DrawnAs.place_ne (hf : DrawnAs s converters record f c p)
    (hg : DrawnAs s converters record g d q) (hne : f ≠ g) : p ≠ q := by
  obtain ⟨before, after, slot, linked, source, hsplit, rfl, hfilling, -⟩ := hf.filled
  obtain ⟨before', after', slot', linked', source', hsplit', rfl, hfilling', -⟩ := hg.filled
  obtain ⟨raw, -, hraw, -⟩ := link_of_filling hfilling
  obtain ⟨raw', -, hraw', -⟩ := link_of_filling hfilling'
  have hmet := length_filter_ne (P := fun f => f.isJoined && (record.get? f.wire).isSome)
    (hsplit.symm.trans hsplit') hne (by simp [hf.joined, hraw]) (by simp [hg.joined, hraw'])
  intro h
  exact hmet (Nat.add_right_cancel h)

/-- The records that a reading reads in turn are placeholders and what is drawn for a field, which
has the name of an entity that the field may point at. -/
theorem Calls.drawn {type : TypeName} (hs : catalog.schema? type = some s)
    {callee : TypeName × Record} (h : Calls catalog converters (type, record) callee) :
    ∃ f ∈ s.fields, (f.eager = true ∧ ∃ r, callee.2 = placeholder r) ∨
      ∃ child place, DrawnAs s converters record f child place ∧ child ∈ f.targets ∧
        callee.2 = record.extract child place := by
  obtain ⟨-, t, before, f, after, slot, source, ht, hsplit, hfilling, hrecord⟩ := h.filling
  cases hs.symm.trans ht
  refine ⟨f, by simp [hsplit], ?_⟩
  obtain ⟨raw, value, -, -, hbinding, hcontent⟩ := link_of_filling hfilling
  rcases content_cases hcontent with ⟨heager, r, -, hsource⟩ | ⟨heager, link, -, hsource⟩
  · exact .inl ⟨heager, r, hrecord.trans hsource⟩
  · rw [Nat.add_comm] at hfilling hsource
    obtain ⟨-, hjoined⟩ := isJoined_of_link hbinding heager
    have hdrawn : DrawnAs s converters record f link.childEntity (met record before + 1) :=
      ⟨hjoined, before, after, slot, callee.1, source, hsplit, rfl, hfilling, hsource⟩
    exact .inr ⟨link.childEntity, met record before + 1, hdrawn,
      hdrawn.mem_targets (Catalog.built_of_schema? hs), hrecord.trans hsource⟩

/-! ### The aliases of two fields -/

/-- Queries know the entity of a joined field by an alias. -/
def KnownAs (catalog : Catalog) (s : Schema) (f : Field) (joinName : String) : Prop :=
  ∀ inner, Schema.isIdentityName inner = false →
    ∃ attr, Query.resolve catalog s [f.member, inner] = .ok ⟨attr, some joinName⟩

/-- Two fields are known by the aliases of two places. -/
theorem exists_knownAs (hb : s.Built) (hm : (s.fields.map Field.member).Nodup) (hf : f ∈ s.fields)
    (hg : g ∈ s.fields) (hne : f ≠ g) (hfj : f.isJoined = true) (hgj : g.isJoined = true)
    {rest rest' : List String} (hft : f.targets = c :: rest) (hgt : g.targets = d :: rest') :
    ∃ p q, p ≠ q ∧ KnownAs catalog s f (joinAlias c p) ∧ KnownAs catalog s g (joinAlias d q) := by
  obtain ⟨before, after, hsplit⟩ := List.append_of_mem hf
  obtain ⟨before', after', hsplit'⟩ := List.append_of_mem hg
  refine ⟨_, _, ?_, fun _ => Query.resolve_of_joined hb hm hsplit hfj hft,
    fun _ => Query.resolve_of_joined hb hm hsplit' hgj hgt⟩
  intro h
  exact length_filter_ne (hsplit.symm.trans hsplit') hne hfj hgj (Nat.add_right_cancel h)

/-! ### Two links -/

/-- **Links share data only where their names run into each other.**

Two joined fields are known to queries by the names of their targets at two places, which give one
alias only when one name ends in digits that the other's place starts with.  Their entities are read
from two places as well, and an attribute is read into both only when one of the two covers the other.
-/
theorem links_apart {type : TypeName} (hs : catalog.schema? type = some s)
    (hm : (s.fields.map Field.member).Nodup) :
    (∀ f ∈ s.fields, ∀ g ∈ s.fields, f ≠ g → f.isJoined = true → g.isJoined = true →
      ∀ c rest d rest', f.targets = c :: rest → g.targets = d :: rest' →
        ∃ p q, p ≠ q ∧ KnownAs catalog s f (joinAlias c p) ∧ KnownAs catalog s g (joinAlias d q) ∧
          (joinAlias c p = joinAlias d q ↔ RunsInto c p d q ∨ RunsInto d q c p)) ∧
    ∀ (converters : Converters) (record : Record),
      (∀ callee, Calls catalog converters (type, record) callee →
        ∃ f ∈ s.fields, (f.eager = true ∧ ∃ r, callee.2 = placeholder r) ∨
          ∃ child place, DrawnAs s converters record f child place ∧ child ∈ f.targets ∧
            callee.2 = record.extract child place) ∧
      ∀ f g c p d q, f ≠ g → DrawnAs s converters record f c p →
        DrawnAs s converters record g d q → c ∈ f.targets ∧ d ∈ g.targets ∧ p ≠ q ∧ ∀ key,
          (Record.Under (joinAlias c p) key ∧ Record.Under (joinAlias d q) key ↔
            Covers c p d q ∧ Record.Under (joinAlias d q) key ∨
              Covers d q c p ∧ Record.Under (joinAlias c p) key) := by
  have hb := Catalog.built_of_schema? hs
  constructor
  · intro f hf g hg hne hfj hgj c rest d rest' hft hgt
    obtain ⟨p, q, hpq, hknown, hknown'⟩ := exists_knownAs hb hm hf hg hne hfj hgj hft hgt
    exact ⟨p, q, hpq, hknown, hknown', joinAlias_eq_iff⟩
  · intro converters record
    refine ⟨fun callee h => h.drawn hs, ?_⟩
    intro f g c p d q hne hf hg
    exact ⟨hf.mem_targets hb, hg.mem_targets hb, hf.place_ne hg hne, fun key => under_both_iff⟩

/-- **Links whose targets have plain names share nothing.** -/
theorem links_apart_of_plain {type : TypeName} (hs : catalog.schema? type = some s)
    (hm : (s.fields.map Field.member).Nodup)
    (hplain : ∀ f ∈ s.fields, ∀ target ∈ f.targets, PlainName target) (hne : f ≠ g) :
    (f ∈ s.fields → g ∈ s.fields → f.isJoined = true → g.isJoined = true → f.targets ≠ [] →
      g.targets ≠ [] → ∃ a b, a ≠ b ∧ KnownAs catalog s f a ∧ KnownAs catalog s g b) ∧
    ∀ c p d q key, DrawnAs s converters record f c p → DrawnAs s converters record g d q →
      ¬(Record.Under (joinAlias c p) key ∧ Record.Under (joinAlias d q) key) := by
  have hb := Catalog.built_of_schema? hs
  constructor
  · intro hf hg hfj hgj hft hgt
    obtain ⟨c, rest, hft⟩ := List.exists_cons_of_ne_nil hft
    obtain ⟨d, rest', hgt⟩ := List.exists_cons_of_ne_nil hgt
    obtain ⟨p, q, hpq, hknown, hknown'⟩ := exists_knownAs hb hm hf hg hne hfj hgj hft hgt
    have hc := hplain f hf c (by simp [hft])
    have hd := hplain g hg d (by simp [hgt])
    exact ⟨_, _, joinAlias_ne_of_plain hc hd hpq, hknown, hknown'⟩
  · intro c p d q key hf hg
    have hc := hplain f hf.mem_fields c (hf.mem_targets hb)
    have hd := hplain g hg.mem_fields d (hg.mem_targets hb)
    exact not_under_both_of_plain hc hd (hf.place_ne hg hne)

/-- An account with two contacts, each of them with a name. -/
def introduced : Record :=
  (billed.set "primarycontactid" (.reference ann)).set "contact1.firstname" (.string "Bea")

theorem links_apart_clients :
    clients.schema? "Account" = some clientSchema ∧
      (clientSchema.fields.map Field.member).Nodup ∧
      (∃ p q, KnownAs clients clientSchema primaryContact (joinAlias "contact" p) ∧
        KnownAs clients clientSchema billingContact (joinAlias "contact" q) ∧
        joinAlias "contact" p ≠ joinAlias "contact" q) ∧
      DrawnAs clientSchema .empty introduced primaryContact "contact" 1 ∧
      DrawnAs clientSchema .empty introduced billingContact "contact" 2 ∧
      ∀ key, ¬(Record.Under "contact1" key ∧ Record.Under "contact2" key) := by
  have hs : clients.schema? "Account" = some clientSchema := rfl
  have hm : (clientSchema.fields.map Field.member).Nodup := by decide +kernel
  have hne : primaryContact ≠ billingContact := by decide +kernel
  have hplain : PlainName "contact" := by decide +kernel
  have hprimary : DrawnAs clientSchema .empty introduced primaryContact "contact" 1 :=
    ⟨rfl, [], [billingContact], "primary", "Contact", _, rfl, rfl, rfl, rfl⟩
  have hbilling : DrawnAs clientSchema .empty introduced billingContact "contact" 2 :=
    ⟨rfl, [primaryContact], [], "billing", "Contact", _, rfl, rfl, rfl, rfl⟩
  obtain ⟨hknown, hread⟩ := links_apart hs hm
  refine ⟨hs, hm, ?_, hprimary, hbilling, ?_⟩
  · obtain ⟨p, q, hpq, hprimary, hbilling, halias⟩ :=
      hknown primaryContact (by decide +kernel) billingContact (by decide +kernel) hne rfl rfl
        "contact" [] "contact" [] rfl rfl
    refine ⟨p, q, hprimary, hbilling, fun h => ?_⟩
    rcases halias.mp h with hruns | hruns
    · exact hpq (hruns.eq_of_plain hplain)
    · exact hpq (hruns.eq_of_plain hplain).symm
  · intro key hkey
    obtain ⟨-, hread⟩ := hread .empty introduced
    obtain ⟨-, -, hpq, hboth⟩ := hread _ _ _ _ _ _ hne hprimary hbilling
    rcases (hboth key).mp hkey with ⟨hcovers, -⟩ | ⟨hcovers, -⟩
    · exact hpq (hcovers.eq_of_plain hplain hplain)
    · exact hpq (hcovers.eq_of_plain hplain hplain).symm

/-! ### Teams whose names run into numbers -/

/-- A catalog of leagues, which have a team that goes by `team1` and ten that go by `team`. -/
def leagues : Catalog where
  describe
    | "League" =>
        { names := ["league"]
          declarations := .link "first" "Team" "first" "first" ["team1"] ::
            ["second", "third", "fourth", "fifth", "sixth", "seventh", "eighth", "ninth", "tenth",
              "eleventh"].map fun name => .link name "Team" name name ["team"] }
    | _ => {}

/-- The schema of leagues. -/
def leagueSchema : Schema :=
  .ofDeclarations leagues.names (leagues.names "League") (leagues.describe "League").declarations

/-- The team that goes by `team1`. -/
def firstTeam : Field :=
  { member := "first", wire := "first", binding := .link "first" "Team", targets := ["team1"] }

/-- The last of the teams that go by `team`. -/
def lastTeam : Field :=
  { member := "eleventh", wire := "eleventh", binding := .link "eleventh" "Team"
    targets := ["team"] }

/-- A league whose first and last teams are known. -/
def season : Record :=
  ["second", "third", "fourth", "fifth", "sixth", "seventh", "eighth", "ninth", "tenth"].foldl
    (fun record name => record.set name .null)
    (((({ entity := "league", id := ⟨19, by decide⟩ } : Record).set "first"
      (.reference ⟨"team1", ⟨20, by decide⟩⟩)).set "eleventh"
      (.reference ⟨"team", ⟨21, by decide⟩⟩)).set "team11.name" (.string "Reds"))

/-- The name that a linked entity of a league has in its record. -/
def nameOf (e : Entity) (slot : String) : Option Value :=
  ((e.link? slot).bind (·.header.record)).bind (·.get? "name")

/-- The first and the last team are known by one alias, and a name under it is read into both. -/
theorem teams_share :
    leagues.schema? "League" = some leagueSchema ∧
      (leagueSchema.fields.map Field.member).Nodup ∧
      firstTeam ∈ leagueSchema.fields ∧ lastTeam ∈ leagueSchema.fields ∧ firstTeam ≠ lastTeam ∧
      firstTeam.isJoined = true ∧ lastTeam.isJoined = true ∧
      KnownAs leagues leagueSchema firstTeam "team11" ∧
      KnownAs leagues leagueSchema lastTeam "team11" ∧
      season.attributes.entries.filter (·.2 = .string "Reds") = [("team11.name", .string "Reds")] ∧
      ∃ e, Entity.ofRecord leagues .empty "League" season = .ok e ∧
        nameOf e "first" = some (.string "Reds") ∧ nameOf e "eleventh" = some (.string "Reds") := by
  have hs : leagues.schema? "League" = some leagueSchema := rfl
  have hb := Catalog.built_of_schema? hs
  have hm : (leagueSchema.fields.map Field.member).Nodup := by decide +kernel
  have hsplit : leagueSchema.fields = [] ++ firstTeam :: leagueSchema.fields.tail := rfl
  have hsplit' : leagueSchema.fields = leagueSchema.fields.dropLast ++ lastTeam :: [] := rfl
  have hfirst : KnownAs leagues leagueSchema firstTeam "team11" := fun _ =>
    Query.resolve_of_joined hb hm hsplit rfl rfl
  have hlast : KnownAs leagues leagueSchema lastTeam "team11" := fun _ =>
    Query.resolve_of_joined hb hm hsplit' rfl rfl
  exact ⟨hs, hm, by decide +kernel, by decide +kernel, by decide +kernel, rfl, rfl, hfirst, hlast,
    by decide +kernel, _, rfl, rfl, rfl⟩

end Mapping

end TypedRecords
