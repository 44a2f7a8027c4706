/-!
Sets of characters given as ranges of code points.

A table is a list of closed ranges in ascending order. `inRanges` asks
whether the code point of a character lies in one of them.

Characters are the scalar values of Unicode, and texts are made of them. A lone surrogate has a
code point too but is not among them, so source texts, arguments and log messages that hold one
are left out throughout.
-/

namespace LoxGraph

/-- Whether the code point of a character lies in one of the closed ranges. -/
def inRanges (ranges : List (Nat × Nat)) (c : Char) : Bool :=
  ranges.any fun range => range.1 ≤ c.toNat && c.toNat ≤ range.2

end LoxGraph
