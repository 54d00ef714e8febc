/-! Numbers and bytes in hexadecimal, and numbers with leading zeros. -/
namespace TypedSql.Text

/-- The digits of a number in the given base, with zeros in front up to a width. -/
def padded (base width n : Nat) : String :=
  let digits := Nat.toDigits base n
  String.ofList (List.replicate (width - digits.length) '0' ++ digits)

/-- Two lower-case hexadecimal digits for each byte. -/
def hex (bytes : List UInt8) : String := String.join (bytes.map fun b => padded 16 2 b.toNat)

end TypedSql.Text
