/-
Record identities.

An identity is a 128-bit number; zero, the nil identity, stands for "no record".  Its canonical text
is 32 lower-case hexadecimal digits in groups of 8, 4, 4, 4 and 12 joined by hyphens, so that the
order of identities is the order of their texts.  Reading drops blanks around the text and then
braces, and takes the digits in either case, grouped or plain, or grouped after `urn:uuid:`.
-/
import TypedRecords.Text.Blank
import TypedRecords.Text.Digits

namespace TypedRecords

/-- A 128-bit record identity. -/
structure Identity where
  toNat : Nat
  toNat_lt : toNat < 2 ^ 128
deriving DecidableEq

namespace Identity

/-- The identity of no record. -/
def nil : Identity := ⟨0, by decide⟩

instance : Inhabited Identity := ⟨nil⟩

/-- The identity names no record. -/
def isNil (id : Identity) : Bool := id.toNat = 0

/-- The order of the numbers. -/
def compare (a b : Identity) : Ordering := Ord.compare a.toNat b.toNat

/-! ### Writing -/

/-- The 32 hexadecimal digits of an identity, in lower case. -/
def hexDigits (id : Identity) : List Char :=
  (Text.fixedDigits 16 32 id.toNat).map Nat.digitChar

/-- Splits 32 digits into their five groups, with hyphens between. -/
def hyphenate (cs : List Char) : List Char :=
  cs.take 8 ++ '-' :: (cs.drop 8).take 4 ++ '-' :: (cs.drop 12).take 4 ++ '-' ::
    (cs.drop 16).take 4 ++ '-' :: cs.drop 20

/-- The hyphenated lower-case text. -/
def canonical (id : Identity) : String := String.ofList (hyphenate id.hexDigits)

/-! ### Reading -/

/-- Reads exactly 32 hexadecimal digits. -/
def ofHex? (cs : List Char) : Option Identity :=
  if cs.length ≠ 32 then none
  else (cs.mapM Text.hexValue?).bind fun ds =>
    let n := Text.ofDigits 16 0 ds
    if h : n < 2 ^ 128 then some ⟨n, h⟩ else none

/-- Reads the hyphenated form. -/
def ofHyphenated? (cs : List Char) : Option Identity :=
  if cs.length = 36 ∧ [8, 13, 18, 23].all (fun i => cs[i]? = some '-') then
    ofHex? (cs.take 8 ++ (cs.drop 9).take 4 ++ (cs.drop 14).take 4 ++ (cs.drop 19).take 4 ++
      cs.drop 24)
  else none

/-- The mark of the hyphenated form as a resource name. -/
def urn : List Char := "urn:uuid:".toList

/-- Reads the hyphenated form after `urn:uuid:`. -/
def ofUrn? (cs : List Char) : Option Identity :=
  if (cs.take urn.length).map Char.toLower = urn then ofHyphenated? (cs.drop urn.length) else none

/-- Reads plain, hyphenated or resource-name digits that take up the whole text. -/
def ofDigits? (cs : List Char) : Option Identity :=
  ofHex? cs <|> ofHyphenated? cs <|> ofUrn? cs

/-- A text without blanks around it, opening braces before it and closing braces after it. -/
def unwrap (s : String) : List Char :=
  Text.dropEndWhile (· = '}') ((Text.trim s).toList.dropWhile (· = '{'))

/-- The identity a text stands for. -/
def ofText? (s : String) : Option Identity := ofDigits? (unwrap s)

/-- Reads what `ofDigits?` reads, or the hyphenated form inside one pair of braces. -/
def ofBraced? (s : String) : Option Identity :=
  match s.toList with
  | '{' :: rest => if rest.getLast? = some '}' then ofHyphenated? rest.dropLast else none
  | cs => ofDigits? cs

/-- The text stands for this identity. -/
def matchesText (id : Identity) (s : String) : Bool := ofText? s = some id

example : (ofText? "{6F9619FF-8B86-D011-B42D-00C04FC964FF}").map canonical
    = some "6f9619ff-8b86-d011-b42d-00c04fc964ff" := by decide +kernel
example : ofText? "not-an-id" = none := by decide +kernel

end Identity

end TypedRecords
