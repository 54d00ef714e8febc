/-! Characters from UTF-8 bytes, with the place and extent of the first malformed sequence. -/
namespace TypedSql.Text.Utf8

/-- The bytes before `index` are well formed; the next `length` bytes are no start of a character,
or, with no length, the text ends inside a character. -/
structure Fault where
  index : Nat
  length : Option Nat
  deriving DecidableEq, Repr

def Fault.message (fault : Fault) : String :=
  match fault.length with
  | some n => s!"invalid utf-8 sequence of {n} bytes from index {fault.index}"
  | none => s!"incomplete utf-8 byte sequence from index {fault.index}"

/-- How many bytes follow a leading byte beyond the first 128, and between which bounds the first of
them lies. -/
def shape (b : UInt8) : Option (Nat × UInt8 × UInt8) :=
  if b < 0xc2 then none
  else if b < 0xe0 then some (1, 0x80, 0xbf)
  else if b = 0xe0 then some (2, 0xa0, 0xbf)
  else if b = 0xed then some (2, 0x80, 0x9f)
  else if b < 0xf0 then some (2, 0x80, 0xbf)
  else if b = 0xf0 then some (3, 0x90, 0xbf)
  else if b < 0xf4 then some (3, 0x80, 0xbf)
  else if b = 0xf4 then some (3, 0x80, 0x8f)
  else none

def continues (b : UInt8) : Bool := 0x80 ≤ b && b ≤ 0xbf

def joined (lead : Nat) (rest : List UInt8) : Char :=
  Char.ofNat (rest.foldl (fun n b => n * 64 + b.toNat % 64) lead)

def decodeFrom (index : Nat) : List UInt8 → Except Fault (List Char)
  | [] => .ok []
  | b :: r =>
    if b < 0x80 then (Char.ofNat b.toNat :: ·) <$> decodeFrom (index + 1) r
    else match shape b with
      | none => .error ⟨index, some 1⟩
      | some (count, low, high) =>
        match r with
        | [] => .error ⟨index, none⟩
        | c :: r =>
          if c < low || high < c then .error ⟨index, some 1⟩
          else if count = 1 then
            (joined (b.toNat % 32) [c] :: ·) <$> decodeFrom (index + 2) r
          else match r with
            | [] => .error ⟨index, none⟩
            | d :: r =>
              if !continues d then .error ⟨index, some 2⟩
              else if count = 2 then
                (joined (b.toNat % 16) [c, d] :: ·) <$> decodeFrom (index + 3) r
              else match r with
                | [] => .error ⟨index, none⟩
                | e :: r =>
                  if !continues e then .error ⟨index, some 3⟩
                  else (joined (b.toNat % 8) [c, d, e] :: ·) <$> decodeFrom (index + 4) r

/-- The text the bytes stand for, or the first fault. -/
def decode (bytes : List UInt8) : Except Fault String := String.ofList <$> decodeFrom 0 bytes

/-- The bytes of a text. -/
def encode (s : String) : List UInt8 := s.toList.flatMap String.utf8EncodeChar

end TypedSql.Text.Utf8
