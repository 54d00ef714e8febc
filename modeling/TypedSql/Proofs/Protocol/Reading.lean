import TypedSql.Proofs.Outcome
import TypedSql.Protocol.Reader
import Mathlib.Tactic.Ring

/-! Readers that give back what was written, and leave the bytes behind it. -/
namespace TypedSql.Protocol

/-- The byte of a number at a place, counted from the low end. -/
def byteAt (place : Nat) (n : Int) : UInt8 := (n / 256 ^ place % 256).toNat.toUInt8

theorem byteAt_toNat (place : Nat) (n : Int) : ((byteAt place n).toNat : Int) = n / 256 ^ place % 256 := by
  rw [byteAt]
  have hlow : 0 ≤ n / 256 ^ place % 256 := Int.emod_nonneg _ (by decide)
  have hhigh : n / 256 ^ place % 256 < 256 := Int.emod_lt_of_pos _ (by decide)
  generalize n / 256 ^ place % 256 = digit at *
  have hbyte : digit.toNat.toUInt8.toNat = digit.toNat := Nat.mod_eq_of_lt (by omega)
  omega

theorem bytesOf_succ (width : Nat) (n : Int) : bytesOf (width + 1) n = byteAt width n :: bytesOf width n := by
  rw [bytesOf, List.range_succ_eq_map, List.map_cons, List.map_map]
  refine congrArg₂ List.cons rfl (List.map_congr_left fun i _ => ?_)
  have hplace : width + 1 - 1 - i.succ = width - 1 - i := by omega
  rw [Function.comp_apply, hplace]

@[simp] theorem bytesOf_length (width : Nat) (n : Int) : (bytesOf width n).length = width := by
  rw [bytesOf, List.length_map, List.length_range]

theorem unsigned_cons (b : UInt8) (bytes : List UInt8) :
    unsigned (b :: bytes) = b.toNat * 256 ^ bytes.length + unsigned bytes := by
  have hfold (m : Nat) : bytes.foldl (fun n b => n * 256 + b.toNat) m =
      m * 256 ^ bytes.length + unsigned bytes := by
    induction bytes generalizing m with
    | nil => simp [unsigned]
    | cons c bytes ih =>
      have htail : unsigned (c :: bytes) = (0 * 256 + c.toNat) * 256 ^ bytes.length + unsigned bytes := ih _
      rw [List.foldl_cons, ih, htail, List.length_cons]
      ring
  rw [unsigned, List.foldl_cons, hfold, Nat.zero_mul, Nat.zero_add]

/-- A remainder by a product, its high digit first. -/
private theorem emod_mul_256 {m : Int} (hm : 0 < m) (n : Int) : n % (m * 256) = n / m % 256 * m + n % m := by
  have hlow : 0 ≤ n / m % 256 * m + n % m :=
    Int.add_nonneg (Int.mul_nonneg (Int.emod_nonneg _ (by decide)) hm.le) (Int.emod_nonneg n hm.ne')
  have hhigh : n / m % 256 * m + n % m < m * 256 := by
    have hdigit : n / m % 256 * m ≤ 255 * m :=
      Int.mul_le_mul_of_nonneg_right (by omega) hm.le
    have hrest := Int.emod_lt_of_pos n hm
    omega
  have hsplit : n = n / m % 256 * m + n % m + m * 256 * (n / m / 256) := by
    calc n = m * (n / m) + n % m := (Int.mul_ediv_add_emod n m).symm
      _ = m * (256 * (n / m / 256) + n / m % 256) + n % m := by rw [Int.mul_ediv_add_emod (n / m) 256]
      _ = n / m % 256 * m + n % m + m * 256 * (n / m / 256) := by ring
  conv_lhs => rw [hsplit, Int.add_mul_emod_self_left, Int.emod_eq_of_lt hlow hhigh]

/-- The low bytes of a number keep its remainder. -/
theorem unsigned_bytesOf (width : Nat) (n : Int) : (unsigned (bytesOf width n) : Int) = n % 256 ^ width := by
  induction width with
  | zero =>
    rw [pow_zero, Int.emod_one]
    rfl
  | succ width ih =>
    have hpos : (0 : Int) < 256 ^ width := Int.pow_pos (by decide)
    rw [bytesOf_succ, unsigned_cons, bytesOf_length, Nat.cast_add, Nat.cast_mul, byteAt_toNat, ih,
      pow_succ, emod_mul_256 hpos, Nat.cast_pow]
    rfl

theorem signed_bytesOf (width : Nat) (n : Int) : signed (bytesOf width n) = n.bmod (256 ^ width) := by
  rw [signed, unsigned_bytesOf, bytesOf_length, Nat.pow_eq]
  exact_mod_cast Int.emod_bmod n (256 ^ width)

/-- A reader gives a value for some bytes, whatever stands behind them. -/
def Reads {α : Type} (read : Reader α) (a : α) (bytes : List UInt8) : Prop :=
  ∀ rest, read (bytes ++ rest) = .ok (a, rest)

section Readers

variable {α β : Type} {read : Reader α} {a : α} {bytes : List UInt8}

theorem take_reads (bytes : List UInt8) : Reads (take bytes.length) bytes bytes := by
  intro rest
  simp [take]

theorem readSigned_reads {width : Nat} {n : Int} (hlow : -(256 ^ width : Int) ≤ n * 2)
    (hhigh : n * 2 < (256 ^ width : Int)) : Reads (readSigned width) n (bytesOf width n) := by
  intro rest
  have htake := take_reads (bytesOf width n) rest
  rw [bytesOf_length] at htake
  have hsigned : signed (bytesOf width n) = n := by
    rw [signed_bytesOf]
    exact Int.bmod_eq_of_le_mul_two (by exact_mod_cast hlow) (by exact_mod_cast hhigh)
  rw [readSigned, htake, ok_bind]
  simp only [hsigned]
  rfl

theorem readUnsigned_byte (b : UInt8) : Reads (readUnsigned 1) b.toNat [b] := by
  intro rest
  simp [readUnsigned, take, unsigned]

/-- Counts that fit in 31 bits. -/
theorem readSigned_count {n : Nat} (h : n < 2 ^ 31) : Reads (readSigned 4) n (bytesOf 4 n) :=
  readSigned_reads (by omega) (by omega)

/-- Reading a number passes over as many bytes as it has. -/
theorem readSigned_skips (width : Nat) (n : Int) : ∃ m, Reads (readSigned width) m (bytesOf width n) := by
  refine ⟨signed (bytesOf width n), fun rest => ?_⟩
  have htake := take_reads (bytesOf width n) rest
  rw [bytesOf_length] at htake
  rw [readSigned, htake, ok_bind]
  rfl

theorem readValue_null : Reads readValue none (bytesOf 4 (-1)) := by
  intro rest
  have hcount : Reads (readSigned 4) (-1) (bytesOf 4 (-1)) := readSigned_reads (by decide) (by decide)
  rw [readValue, hcount, ok_bind]
  rfl

theorem readValue_some (h : bytes.length < 2 ^ 31) :
    Reads readValue (some bytes) (bytesOf 4 bytes.length ++ bytes) := by
  intro rest
  rw [readValue, List.append_assoc, readSigned_count h, ok_bind]
  have hcount : ¬ ((bytes.length : Int) < 0) := by omega
  simp only [if_neg hcount, Int.toNat_natCast, take_reads bytes rest]
  rfl

/-- Values in a row, each with its bytes. -/
theorem readMany_reads {as : List α} {parts : List (List UInt8)} (h : List.Forall₂ (Reads read) as parts) :
    Reads (readMany read as.length) as parts.flatten := by
  induction h with
  | nil => exact fun rest => rfl
  | @cons a part as parts ha _ ih =>
    intro rest
    rw [List.length_cons, readMany, List.flatten_cons, List.append_assoc, ha, ok_bind]
    simp only [ih rest]
    rfl

end Readers

end TypedSql.Protocol
