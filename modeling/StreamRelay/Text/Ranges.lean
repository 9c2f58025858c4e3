/-!
# Sets of characters

A set of characters is written as the ranges of its code points, in ascending order, so that a
search ends at the first range behind the character.
-/

namespace StreamRelay.Text

/-- Ranges of code points, in ascending order and with both ends included. -/
abbrev CharRanges := List (Nat × Nat)

def CharRanges.has : CharRanges → Char → Bool
  | [], _ => false
  | r :: rs, c =>
    if c.toNat < r.1 then false
    else if c.toNat ≤ r.2 then true
    else CharRanges.has rs c

end StreamRelay.Text
