/-!
# Sets of characters given by their boundaries

The tables of this library describe a set of characters by an increasing list of code points: members run
from the first boundary up to, and not including, the second, from the third up to the fourth, and so on.
`inBounds` decides membership by walking the list, and stops at the first boundary that lies above the
character, so that a table costs next to nothing for the characters at its start.
-/

namespace Switchboard

/-- Whether the code point `n` lies between a boundary at an even place of the list and the one after it. -/
def inBounds (n : Nat) : List Nat → Bool
  | [] => false
  | [lo] => decide (lo ≤ n)
  | lo :: hi :: rest =>
    if n < lo then false
    else if n < hi then true
    else inBounds n rest

/-- A character below the first boundary is outside the set. -/
theorem inBounds_of_lt {n lo : Nat} (rest : List Nat) (h : n < lo) : inBounds n (lo :: rest) = false := by
  cases rest with
  | nil => simp [inBounds, Nat.not_le.2 h]
  | cons hi rest => simp [inBounds, h]

end Switchboard
