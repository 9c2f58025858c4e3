/-!
# Unsigned numbers

Reading and writing the numerals that the program exchanges: decimal numbers that fit a word, with
an optional plus sign, and single digits of a base.
-/

namespace StreamRelay.Text

def wordSize : Nat := UInt64.size

def decimalDigit? (c : Char) : Option Nat :=
  if '0' ≤ c ∧ c ≤ '9' then some (c.toNat - '0'.toNat) else none

def hexDigit? (c : Char) : Option Nat :=
  if '0' ≤ c ∧ c ≤ '9' then some (c.toNat - '0'.toNat)
  else if 'a' ≤ c ∧ c ≤ 'f' then some (c.toNat - 'a'.toNat + 10)
  else if 'A' ≤ c ∧ c ≤ 'F' then some (c.toNat - 'A'.toNat + 10)
  else none

def hexDigit (n : Nat) : Char :=
  if n < 10 then Char.ofNat ('0'.toNat + n) else Char.ofNat ('a'.toNat + (n - 10))

def hexByte (b : UInt8) : List Char := [hexDigit (b.toNat / 16), hexDigit (b.toNat % 16)]

def digitsValue? (s : List Char) : Option Nat :=
  s.foldlM (fun n c => (decimalDigit? c).map (10 * n + ·)) 0

/-- A number below `bound`: an optional `+`, then one or more decimal digits and nothing else. -/
def unsigned? (bound : Nat) (s : List Char) : Option Nat :=
  let digits := match s with
    | '+' :: rest => rest
    | _ => s
  if digits.isEmpty then none else (digitsValue? digits).filter (· < bound)

def hexNumeral (n : Nat) : List Char := (Nat.toDigits 16 n)

end StreamRelay.Text
