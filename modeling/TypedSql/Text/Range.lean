/-! Sets of characters given as ranges of code points. -/
namespace TypedSql.Text

/-- Whether some range, given by its first and last code point, holds the character. -/
def inRanges (ranges : List (Nat × Nat)) (c : Char) : Bool :=
  ranges.any fun (first, last) => first ≤ c.toNat && c.toNat ≤ last

end TypedSql.Text
