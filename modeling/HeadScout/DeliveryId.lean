import HeadScout.Identifier
import HeadScout.Text.Hexadecimal

/-!
# Delivery identifiers

A delivery is named by 128 bits, written as 32 hexadecimal digits in five groups. Reading also takes
the digits without hyphens, the grouped form in braces, and the grouped form as a URN. Letters count
the same in either case, in the digits and in the beginning of a URN.

## Main definitions

* `DeliveryId` — thirty-two hexadecimal digits
* `DeliveryId.read?`, `DeliveryId.render` — the text forms
-/

namespace HeadScout

/-- The name of a delivery. -/
structure DeliveryId where
  /-- Its digits below sixteen, most significant first. -/
  digits : Vector (Fin 16) 32
  deriving DecidableEq, Repr

namespace DeliveryId

/-- The identifier whose digits spell the number. -/
def ofNat (n : Nat) : DeliveryId :=
  ⟨Vector.ofFn fun i => ⟨n / Nat.pow 16 (31 - i.val) % 16, Nat.mod_lt _ (by decide)⟩⟩

/-- The identifier whose digits spell a number chosen at random; two digits say that it was. -/
def ofRandom (n : Nat) : DeliveryId :=
  let ds := (ofNat n).digits
  -- The digit 12 is the version, and the two upper bits of the digit 16 are the variant.
  ⟨(ds.set 12 4).set 16 ⟨8 + ds[16].val % 4, by omega⟩⟩

/-- A hexadecimal digit of either case. -/
def digit? (c : Char) : Option (Fin 16) :=
  (Hexadecimal.digit? c).bind fun d => if h : d < 16 then some ⟨d, h⟩ else none

/-- The identifier of 32 hexadecimal digits. -/
def ofDigits? (s : List Char) : Option DeliveryId := do
  let ds ← s.mapM digit?
  if h : ds.toArray.size = 32 then return ⟨⟨ds.toArray, h⟩⟩ else none

/-- The digits of the grouped form: groups of 8, 4, 4, 4 and 12 with hyphens between them. -/
def ungroup? (s : List Char) : Option (List Char) :=
  if s.length = 36 ∧ [8, 13, 18, 23].all (fun i => s[i]? == some '-') then
    some (s.take 8 ++ (s.drop 9).take 4 ++ (s.drop 14).take 4 ++ (s.drop 19).take 4 ++ s.drop 24)
  else none

/-- What stands before the grouped form in a URN, in small letters. -/
def urnScheme : List Char := "urn:uuid:".toList

/-- The identifier that a text names. -/
def readChars? (s : List Char) : Option DeliveryId :=
  if s.length = 32 then ofDigits? s
  else if s.length = 38 then
    if s.head? = some '\x7b' ∧ s.getLast? = some '\x7d' then
      (ungroup? (s.drop 1).dropLast).bind ofDigits?
    else none
  else if s.length = 45 then
    if (s.take 9).map Char.toLower = urnScheme then (ungroup? (s.drop 9)).bind ofDigits? else none
  else (ungroup? s).bind ofDigits?

/-- The identifier that a text names. -/
def read? (s : String) : Option DeliveryId := readChars? s.toList

/-- The grouped form in small digits. -/
def render (i : DeliveryId) : String :=
  let cs := i.digits.toList.map fun d => Hexadecimal.digitChar d.val
  String.ofList (cs.take 8 ++ '-' :: (cs.drop 8).take 4 ++ '-' :: (cs.drop 12).take 4 ++
    '-' :: (cs.drop 16).take 4 ++ '-' :: cs.drop 20)

/-- An identifier is stored in its grouped form. -/
def toJson (i : DeliveryId) : Json := .text i.render

def ofJson? (v : Json) : Option DeliveryId := v.text?.bind read?

end DeliveryId

end HeadScout
