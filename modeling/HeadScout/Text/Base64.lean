/-!
# Base64

Octets written with sixty-four ASCII characters: three octets become four characters, and the last
group is filled up with equals signs.

## Main definitions

* `Base64.encode` — the characters of a list of octets
* `Base64.encodeText` — the characters of a text's UTF-8 octets
-/

namespace HeadScout.Base64

/-- The character of a six-bit number. -/
def letter (n : Nat) : Char :=
  if n < 26 then Char.ofNat (65 + n)
  else if n < 52 then Char.ofNat (97 + (n - 26))
  else if n < 62 then Char.ofNat (48 + (n - 52))
  else if n = 62 then '+'
  else '/'

/-- The Base64 characters of a list of octets. -/
def encode : List UInt8 → List Char
  | [] => []
  | [a] =>
    let n := a.toNat * 65536
    [letter (n / 262144), letter (n / 4096 % 64), '=', '=']
  | [a, b] =>
    let n := a.toNat * 65536 + b.toNat * 256
    [letter (n / 262144), letter (n / 4096 % 64), letter (n / 64 % 64), '=']
  | a :: b :: c :: rest =>
    let n := a.toNat * 65536 + b.toNat * 256 + c.toNat
    letter (n / 262144) :: letter (n / 4096 % 64) :: letter (n / 64 % 64) :: letter (n % 64)
      :: encode rest

/-- The Base64 characters of a text's UTF-8 octets. -/
def encodeText (s : String) : String := String.ofList (encode s.toUTF8.data.toList)

example : encode [117, 58, 112] = ['d', 'T', 'p', 'w'] := by decide
example : encode [117, 58] = ['d', 'T', 'o', '='] := by decide

end HeadScout.Base64
