/-!
Sets of characters given by intervals of code points.

* `Ranges`: a table of closed intervals.
* `Ranges.contains`: whether a character's code point lies in one of them.
-/

namespace BuildMend.Text

/-- A set of code points, as closed intervals. -/
structure Ranges where
  /-- The first and the last code point of each interval. -/
  intervals : Array (Nat × Nat)

/-- A character belongs to a table when its code point lies in one of the intervals. -/
def Ranges.contains (r : Ranges) (c : Char) : Bool :=
  r.intervals.any fun (first, last) => first ≤ c.toNat && c.toNat ≤ last

end BuildMend.Text
