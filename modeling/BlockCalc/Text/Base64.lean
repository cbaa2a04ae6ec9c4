/-!
# BlockCalc.Text.Base64

Bytes written with the 64 letters of base 64, four letters for three bytes. The last group is
filled up with equals signs; line ends between the letters say nothing.
-/

namespace BlockCalc
namespace Base64

/-- The six bits of a letter. -/
def bits? (c : Char) : Option Nat :=
  if 'A' ≤ c ∧ c ≤ 'Z' then some (c.toNat - 'A'.toNat)
  else if 'a' ≤ c ∧ c ≤ 'z' then some (c.toNat - 'a'.toNat + 26)
  else if '0' ≤ c ∧ c ≤ '9' then some (c.toNat - '0'.toNat + 52)
  else if c = '+' then some 62
  else if c = '/' then some 63
  else none

/-- The three bytes of 24 bits. -/
def bytesOf (n : Nat) : List UInt8 :=
  [UInt8.ofNat (n / 65536), UInt8.ofNat (n / 256), UInt8.ofNat n]

/-- The bytes of whole groups of letters. -/
def groups : List Char → Option (List UInt8)
  | [] => some []
  | [a, b, '=', '='] => do
    return (bytesOf ((← bits? a) * 2 ^ 18 + (← bits? b) * 2 ^ 12)).take 1
  | [a, b, c, '='] => do
    return (bytesOf ((← bits? a) * 2 ^ 18 + (← bits? b) * 2 ^ 12 + (← bits? c) * 2 ^ 6)).take 2
  | a :: b :: c :: d :: rest => do
    let n := (← bits? a) * 2 ^ 18 + (← bits? b) * 2 ^ 12 + (← bits? c) * 2 ^ 6 + (← bits? d)
    return bytesOf n ++ (← groups rest)
  | _ => none

/-- The bytes that a text stands for. -/
def decode? (cs : List Char) : Option (List UInt8) :=
  groups (cs.filter fun c => c != '\n' && c != '\r')

end Base64
end BlockCalc
