import TypedSql.Conversion.Encode
import TypedSql.Protocol.Decode
import TypedSql.Protocol.Encode
import TypedSql.Proofs.Conversion.Writing
import TypedSql.Proofs.Protocol.Reading

/-! The integer types: whether a number is in their range is decided when a value is converted, when it is
sent and when it is read, and the three agree. -/
namespace TypedSql.Protocol

inductive IntegerType where
  | int2
  | int4
  | int8
  deriving DecidableEq, Repr

namespace IntegerType

def base : IntegerType → BaseType
  | int2 => .int2
  | int4 => .int4
  | int8 => .int8

def form : IntegerType → Form
  | int2 => .int2
  | int4 => .int4
  | int8 => .int8

/-- The count of bytes in which a number is sent. -/
def width : IntegerType → Nat
  | int2 => 2
  | int4 => 4
  | int8 => 8

/-- Numbers of the type. -/
def Holds (type : IntegerType) (n : Int) : Prop :=
  -2 ^ (8 * type.width - 1) ≤ n ∧ n < 2 ^ (8 * type.width - 1)

instance (type : IntegerType) (n : Int) : Decidable (type.Holds n) := inferInstanceAs (Decidable (_ ∧ _))

/-- The scalar of the type that holds a number. -/
def scalar (n : Int) : IntegerType → Scalar
  | int2 => .int16 (.ofInt n)
  | int4 => .int32 (.ofInt n)
  | int8 => .int64 (.ofInt n)

variable {type : IntegerType} {n : Int} {s : Scalar}

theorem fits_iff : Scalar.fits (8 * type.width) n = true ↔ type.Holds n := by
  simp [Scalar.fits, Holds]

theorem ofInt?_native : Scalar.ofInt? n type.base.native = if type.Holds n then some (type.scalar n) else none := by
  simp only [← fits_iff]
  cases type <;> rfl

theorem scalar_toInt? (h : type.Holds n) : (type.scalar n).toInt? = some n := by
  cases type with
  | int2 => exact congrArg some (Int16.toInt_ofInt_of_le h.1 h.2)
  | int4 => exact congrArg some (Int32.toInt_ofInt_of_le h.1 h.2)
  | int8 => exact congrArg some (Int64.toInt_ofInt_of_le h.1 h.2)

/-- A scalar of the type holds a number in its range. -/
theorem scalar_of_native (hs : s.native = type.base.native) : ∃ n, s.toInt? = some n ∧ type.Holds n ∧ s = type.scalar n := by
  cases type with
  | int2 =>
    cases s with
    | int16 n => exact ⟨n.toInt, rfl, ⟨n.le_toInt, n.toInt_lt⟩, by simp [scalar]⟩
    | _ => cases hs
  | int4 =>
    cases s with
    | int32 n => exact ⟨n.toInt, rfl, ⟨n.le_toInt, n.toInt_lt⟩, by simp [scalar]⟩
    | _ => cases hs
  | int8 =>
    cases s with
    | int64 n => exact ⟨n.toInt, rfl, ⟨n.le_toInt, n.toInt_lt⟩, by simp [scalar]⟩
    | _ => cases hs

/-- An integer of any width is converted to the type if it is in the range of the type. -/
theorem coerce_native (hs : s.toInt? = some n) :
    s.coerce type.base.native = if type.Holds n then some (type.scalar n) else none := by
  by_cases hnative : s.native = type.base.native
  · obtain ⟨n', hs', hn, hscalar⟩ := scalar_of_native hnative
    obtain rfl : n' = n := Option.some_inj.mp (hs'.symm.trans hs)
    rw [← hnative, s.coerce_self, if_pos hn, ← hscalar]
  · simp only [← ofInt?_native, Scalar.coerce, if_neg hnative, hs]

/-- What is converted to the type is an integer in its range. -/
theorem coerce_native_eq_some {s' : Scalar} :
    s.coerce type.base.native = some s' ↔ ∃ n, s.toInt? = some n ∧ type.Holds n ∧ s' = type.scalar n := by
  constructor
  · intro h
    by_cases hnative : s.native = type.base.native
    · rw [← hnative, s.coerce_self] at h
      cases h
      exact scalar_of_native hnative
    · cases hs : s.toInt? with
      | some n =>
        rw [coerce_native hs] at h
        split_ifs at h with hn
        cases h
        exact ⟨n, rfl, hn, rfl⟩
      | none =>
        -- what is no integer becomes one in no conversion
        simp only [Scalar.coerce, if_neg hnative, hs] at h
        cases s with
        | int16 | int32 | int64 => cases hs
        | _ => cases type <;> simp [base, BaseType.native] at h
  · rintro ⟨n, hs, hn, rfl⟩
    rw [coerce_native hs, if_pos hn]

theorem carries (hs : s.toInt? = some n) : type.form.carries s = true := by
  cases s with
  | int16 | int32 | int64 => cases type <;> rfl
  | _ => cases hs

/-- No integer scalar is wider than eight bytes. -/
theorem int8_holds (hs : s.toInt? = some n) : int8.Holds n := by
  cases s with
  | int16 m =>
    cases hs
    have hlow := m.le_toInt
    have hhigh := m.toInt_lt
    simp only [Holds, width]
    omega
  | int32 m =>
    cases hs
    have hlow := m.le_toInt
    have hhigh := m.toInt_lt
    simp only [Holds, width]
    omega
  | int64 m =>
    cases hs
    exact ⟨m.le_toInt, m.toInt_lt⟩
  | _ => cases hs

/-- An integer of any width is sent if it is in the range of the type. -/
theorem encode_form (hs : s.toInt? = some n) : type.form.encode s =
    if type.Holds n then .ok (bytesOf type.width n) else .error .integerRange := by
  have hform : type.form.encode s = encodeInt type.form n := by
    cases s with
    | int16 | int32 | int64 => cases hs; rfl
    | _ => cases hs
  rw [hform]
  cases type with
  | int2 | int4 =>
    simp only [← fits_iff]
    rfl
  | int8 =>
    rw [if_pos (int8_holds hs)]
    rfl

theorem signed_bytesOf_width (h : type.Holds n) : signed (bytesOf type.width n) = n := by
  have hlow := h.1
  have hhigh := h.2
  rw [signed_bytesOf]
  apply Int.bmod_eq_of_le_mul_two <;> cases type <;> simp only [width] at * <;> omega

/-- The bytes of a number in the range are read as the number. -/
theorem decode_form (h : type.Holds n) : type.form.decode (bytesOf type.width n) = .ok (type.scalar n) := by
  have hsigned := signed_bytesOf_width h
  have hwhole : whole type.width .wrongSize (bytesOf type.width n) = .ok (bytesOf type.width n) := by
    simp [whole]
  cases type with
  | int2 | int4 | int8 =>
    simp only [width] at hsigned hwhole
    simp only [form, width, Form.decode, hwhole, ok_bind, hsigned]
    rfl

/-- The built-in type of the server that has the same name. -/
theorem kind_of_builtin {server : ServerType} (h : ServerType.builtin? type.base.typeName = some server) :
    server.kind = .simple type.form := by
  cases type <;> cases h <;> rfl

theorem encode_scalar {server : ServerType} (hkind : server.kind = .simple type.form) (hs : s.toInt? = some n) :
    encode server (.scalar s) = if type.Holds n then .ok ⟨.binary, some (bytesOf type.width n)⟩
      else .error .integerRange := by
  have hform : server.form = type.form := by rw [ServerType.form, hkind]
  have hbinary : formatFor server (.scalar s) = .binary := by
    rw [formatFor, hform, carries hs]
    rfl
  simp only [encode, hbinary, hform, encode_form hs]
  split_ifs <;> rfl

theorem decode_bytesOf {server : ServerType} (hkind : server.kind = .simple type.form) (h : type.Holds n) :
    server.decode (bytesOf type.width n) = .ok (.scalar (type.scalar n)) := by
  obtain ⟨name, oid, kind⟩ := server
  cases hkind
  rw [ServerType.decode, decode_form h]
  rfl

/-- An integer of any width is converted to a type exactly if it is in the range of the type, and exactly then it
is sent to a parameter of that type; the bytes are read as the converted scalar. What is accepted for the type is
therefore sent, and the number is the one that was given. -/
theorem gates_agree {server : ServerType} (hserver : ServerType.builtin? type.base.typeName = some server) :
    (∀ {s : Scalar} {n : Int}, s.toInt? = some n →
      s.coerce type.base.native = (if type.Holds n then some (type.scalar n) else none) ∧
      encode server (.scalar s) =
        (if type.Holds n then .ok ⟨.binary, some (bytesOf type.width n)⟩ else .error .integerRange) ∧
      (type.Holds n → (type.scalar n).toInt? = some n ∧
        server.decode (bytesOf type.width n) = .ok (.scalar (type.scalar n)))) ∧
    ∀ {t : TypeRef} {v : Value} {w : Wire}, t.descriptor.kind = .base type.base → t.encode v = .ok w →
      v = .null ∧ w = .null ∧ encode server w = .ok ⟨.text, none⟩ ∨
      ∃ s s' n, v = .scalar s ∧ w = .scalar s' ∧ s.toInt? = some n ∧ s'.toInt? = some n ∧
        encode server w = .ok ⟨.binary, some (bytesOf type.width n)⟩ ∧
        server.decode (bytesOf type.width n) = .ok w := by
  have hkind := kind_of_builtin hserver
  refine ⟨fun hs => ⟨coerce_native hs, encode_scalar hkind hs, fun hn => ⟨scalar_toInt? hn, decode_bytesOf hkind hn⟩⟩, ?_⟩
  intro t v w ht hv
  by_cases hnull : v = .null
  · subst hnull
    rw [TypeRef.encode, TypeDescriptor.encode_null] at hv
    cases hv
    exact .inl ⟨rfl, rfl, rfl⟩
  · obtain ⟨s, s', rfl, hcoerce, rfl⟩ := (TypeDescriptor.encode_base_iff ht hnull).mp hv
    obtain ⟨n, hs, hn, rfl⟩ := coerce_native_eq_some.mp hcoerce
    have hn' := scalar_toInt? hn
    have hsent := encode_scalar hkind hn'
    rw [if_pos hn] at hsent
    exact .inr ⟨s, type.scalar n, n, rfl, rfl, hs, hn', hsent, decode_bytesOf hkind hn⟩

/-- The least number of two bytes given in eight, and the first one beyond them given in four. -/
theorem gates_agree_two_bytes :
    let server : ServerType := ⟨"int2", 21, .simple .int2⟩
    let t : TypeRef := ⟨.builtin .int2, false⟩
    ServerType.builtin? (base int2).typeName = some server ∧ t.descriptor.kind = .base (base int2) ∧
      (Scalar.int64 (-32768)).coerce .int16 = some (.int16 (-32768)) ∧
      encode server (.scalar (.int64 (-32768))) = .ok ⟨.binary, some [128, 0]⟩ ∧
      (Scalar.int32 32768).coerce .int16 = none ∧ encode server (.scalar (.int32 32768)) = .error .integerRange ∧
      ∃ w, t.encode (.scalar (.int64 (-32768))) = .ok w ∧ encode server w = .ok ⟨.binary, some [128, 0]⟩ := by
  intro server t
  have hserver : ServerType.builtin? (base int2).typeName = some server := rfl
  obtain ⟨hscalars, hvalues⟩ := gates_agree hserver
  obtain ⟨hcoerce, hencode, -⟩ := hscalars (s := .int64 (-32768)) (n := -32768) rfl
  obtain ⟨hcoerce', hencode', -⟩ := hscalars (s := .int32 32768) (n := 32768) rfl
  have hw : t.encode (.scalar (.int64 (-32768))) = .ok (.scalar (.int16 (-32768))) := rfl
  refine ⟨hserver, rfl, hcoerce, hencode, hcoerce', hencode', _, hw, ?_⟩
  obtain ⟨hnull, -⟩ | ⟨s, s', n, hs, -, hn, -, hsent, -⟩ := hvalues rfl hw
  · cases hnull
  · cases hs
    cases hn
    exact hsent

end IntegerType
end TypedSql.Protocol
