/-!
# Character ranges

A character class is a sorted list of inclusive code point ranges.
-/

namespace ScriptCore
namespace Text

/-- The code point of `c` lies in one of the inclusive ranges of `table`. -/
def inRanges (table : List (Nat × Nat)) (c : Char) : Bool :=
  table.any fun r => decide (r.1 ≤ c.toNat) && decide (c.toNat ≤ r.2)

end Text
end ScriptCore
