import TypedSql.Proofs.Outcome
import TypedSql.Text.Utf8

/-! A text is read back from its bytes. -/
namespace TypedSql.Text.Utf8

/-- The byte of a number, if it is one of a byte. -/
theorem toNat_ofNat {n : Nat} (h : n < 256) : (UInt8.ofNat n).toNat = n := Nat.mod_eq_of_lt h

theorem shape_eq (b : UInt8) : shape b =
    if b.toNat < 0xc2 then none
    else if b.toNat < 0xe0 then some (1, 0x80, 0xbf)
    else if b.toNat = 0xe0 then some (2, 0xa0, 0xbf)
    else if b.toNat = 0xed then some (2, 0x80, 0x9f)
    else if b.toNat < 0xf0 then some (2, 0x80, 0xbf)
    else if b.toNat = 0xf0 then some (3, 0x90, 0xbf)
    else if b.toNat < 0xf4 then some (3, 0x80, 0xbf)
    else if b.toNat = 0xf4 then some (3, 0x80, 0x8f)
    else none := by
  simp only [shape, UInt8.lt_iff_toNat_lt, ← UInt8.toNat_inj]
  rfl

/-- A leading byte announces a count of bytes, of which the first lies between bounds. -/
def Leads (b : UInt8) (count : Nat) (c : UInt8) : Prop :=
  ∃ low high, shape b = some (count, low, high) ∧ (c < low || high < c) = false

section Leading

variable {b c : UInt8}

theorem leads_of {count : Nat} {low high : UInt8} (hb : shape b = some (count, low, high))
    (hlow : low.toNat ≤ c.toNat) (hhigh : c.toNat ≤ high.toNat) : Leads b count c := by
  refine ⟨low, high, hb, ?_⟩
  simp only [UInt8.lt_iff_toNat_lt, Bool.or_eq_false_iff, decide_eq_false_iff_not]
  omega

theorem leads_two (hb : 0xc2 ≤ b.toNat) (hb' : b.toNat < 0xe0) (hc : 0x80 ≤ c.toNat)
    (hc' : c.toNat ≤ 0xbf) : Leads b 1 c := by
  have hshape := shape_eq b
  rw [if_neg (by omega), if_pos hb'] at hshape
  exact leads_of hshape hc hc'

theorem leads_three (hb : 0xe0 ≤ b.toNat) (hb' : b.toNat < 0xf0) (hc : 0x80 ≤ c.toNat)
    (hc' : c.toNat ≤ 0xbf) (hlow : b.toNat = 0xe0 → 0xa0 ≤ c.toNat)
    (hhigh : b.toNat = 0xed → c.toNat ≤ 0x9f) : Leads b 2 c := by
  have hshape := shape_eq b
  rw [if_neg (by omega), if_neg (by omega)] at hshape
  by_cases hfirst : b.toNat = 0xe0
  · exact leads_of (hshape.trans (if_pos hfirst)) (hlow hfirst) hc'
  rw [if_neg hfirst] at hshape
  by_cases hlast : b.toNat = 0xed
  · exact leads_of (hshape.trans (if_pos hlast)) hc (hhigh hlast)
  rw [if_neg hlast, if_pos hb'] at hshape
  exact leads_of hshape hc hc'

theorem leads_four (hb : 0xf0 ≤ b.toNat) (hb' : b.toNat ≤ 0xf4) (hc : 0x80 ≤ c.toNat)
    (hc' : c.toNat ≤ 0xbf) (hlow : b.toNat = 0xf0 → 0x90 ≤ c.toNat)
    (hhigh : b.toNat = 0xf4 → c.toNat ≤ 0x8f) : Leads b 3 c := by
  have hshape := shape_eq b
  rw [if_neg (by omega), if_neg (by omega), if_neg (by omega), if_neg (by omega),
    if_neg (by omega)] at hshape
  by_cases hfirst : b.toNat = 0xf0
  · exact leads_of (hshape.trans (if_pos hfirst)) (hlow hfirst) hc'
  rw [if_neg hfirst] at hshape
  by_cases hlast : b.toNat = 0xf4
  · rw [if_neg (by omega), if_pos hlast] at hshape
    exact leads_of hshape hc (hhigh hlast)
  rw [if_pos (by omega)] at hshape
  exact leads_of hshape hc hc'

theorem continues_of (hc : 0x80 ≤ c.toNat) (hc' : c.toNat ≤ 0xbf) : continues c = true := by
  simp [continues, UInt8.le_iff_toNat_le]
  omega

variable {count index : Nat} {d e : UInt8} {rest : List UInt8}

theorem Leads.not_ascii (h : Leads b count c) : ¬ b < 0x80 := by
  obtain ⟨low, high, h, -⟩ := h
  rw [shape_eq] at h
  rw [UInt8.lt_iff_toNat_lt]
  intro hlt
  have hb : b.toNat < 0x80 := hlt
  rw [if_pos (by omega)] at h
  cases h

theorem decodeFrom_one (h : b.toNat < 0x80) : decodeFrom index (b :: rest) =
    (Char.ofNat b.toNat :: ·) <$> decodeFrom (index + 1) rest := by
  rw [decodeFrom.eq_def]
  exact if_pos (UInt8.lt_iff_toNat_lt.mpr h)

theorem decodeFrom_two (h : Leads b 1 c) : decodeFrom index (b :: c :: rest) =
    (joined (b.toNat % 32) [c] :: ·) <$> decodeFrom (index + 2) rest := by
  have hascii := h.not_ascii
  obtain ⟨low, high, hshape, hbounds⟩ := h
  rw [decodeFrom.eq_def]
  simp only [if_neg hascii, hshape, hbounds]
  rfl

theorem decodeFrom_three (h : Leads b 2 c) (hd : continues d = true) :
    decodeFrom index (b :: c :: d :: rest) =
      (joined (b.toNat % 16) [c, d] :: ·) <$> decodeFrom (index + 3) rest := by
  have hascii := h.not_ascii
  obtain ⟨low, high, hshape, hbounds⟩ := h
  rw [decodeFrom.eq_def]
  simp only [if_neg hascii, hshape, hbounds, hd]
  rfl

theorem decodeFrom_four (h : Leads b 3 c) (hd : continues d = true) (he : continues e = true) :
    decodeFrom index (b :: c :: d :: e :: rest) =
      (joined (b.toNat % 8) [c, d, e] :: ·) <$> decodeFrom (index + 4) rest := by
  have hascii := h.not_ascii
  obtain ⟨low, high, hshape, hbounds⟩ := h
  rw [decodeFrom.eq_def]
  simp only [if_neg hascii, hshape, hbounds, hd, he]
  rfl

end Leading

/-- A character is read from its bytes, whatever stands behind them. -/
theorem decodeFrom_char (c : Char) (index : Nat) (rest : List UInt8) : ∃ index',
    decodeFrom index (String.utf8EncodeChar c ++ rest) = (c :: ·) <$> decodeFrom index' rest := by
  have hvalid : c.toNat < 0xd800 ∨ 0xdfff < c.toNat ∧ c.toNat < 0x110000 := c.valid
  have hchar (n : Nat) (h : n = c.toNat) : Char.ofNat n = c := h ▸ Char.ofNat_toNat c
  have hencode : String.utf8EncodeChar c =
      if c.toNat ≤ 0x7f then [.ofNat c.toNat]
      else if c.toNat ≤ 0x7ff then [.ofNat (c.toNat / 64 % 32 + 0xc0), .ofNat (c.toNat % 64 + 0x80)]
      else if c.toNat ≤ 0xffff then [.ofNat (c.toNat / 4096 % 16 + 0xe0),
        .ofNat (c.toNat / 64 % 64 + 0x80), .ofNat (c.toNat % 64 + 0x80)]
      else [.ofNat (c.toNat / 262144 % 8 + 0xf0), .ofNat (c.toNat / 4096 % 64 + 0x80),
        .ofNat (c.toNat / 64 % 64 + 0x80), .ofNat (c.toNat % 64 + 0x80)] := rfl
  rw [hencode]
  generalize c.toNat = n at hvalid hchar
  have hlow := toNat_ofNat (show n % 64 + 0x80 < 256 by omega)
  have hmiddle := toNat_ofNat (show n / 64 % 64 + 0x80 < 256 by omega)
  have hhigh := toNat_ofNat (show n / 4096 % 64 + 0x80 < 256 by omega)
  split
  · have hb := toNat_ofNat (show n < 256 by omega)
    exact ⟨index + 1, by rw [List.singleton_append, decodeFrom_one (by omega), hchar _ hb]⟩
  · split
    · have hb := toNat_ofNat (show n / 64 % 32 + 0xc0 < 256 by omega)
      refine ⟨index + 2, (decodeFrom_two (leads_two ?_ ?_ ?_ ?_)).trans ?_⟩ <;> try omega
      rw [joined, hchar _ (by simp only [List.foldl_cons, List.foldl_nil]; omega)]
      rfl
    · split
      · have hb := toNat_ofNat (show n / 4096 % 16 + 0xe0 < 256 by omega)
        refine ⟨index + 3, (decodeFrom_three (leads_three ?_ ?_ ?_ ?_ ?_ ?_)
          (continues_of ?_ ?_)).trans ?_⟩ <;> try omega
        rw [joined, hchar _ (by simp only [List.foldl_cons, List.foldl_nil]; omega)]
        rfl
      · have hb := toNat_ofNat (show n / 262144 % 8 + 0xf0 < 256 by omega)
        refine ⟨index + 4, (decodeFrom_four (leads_four ?_ ?_ ?_ ?_ ?_ ?_)
          (continues_of ?_ ?_) (continues_of ?_ ?_)).trans ?_⟩ <;> try omega
        rw [joined, hchar _ (by simp only [List.foldl_cons, List.foldl_nil]; omega)]
        rfl

theorem decodeFrom_encode (cs : List Char) (index : Nat) :
    decodeFrom index (cs.flatMap String.utf8EncodeChar) = .ok cs := by
  induction cs generalizing index with
  | nil => rfl
  | cons c cs ih =>
    obtain ⟨index', h⟩ := decodeFrom_char c index (cs.flatMap String.utf8EncodeChar)
    rw [List.flatMap_cons, h, ih, ok_map]

theorem decode_encode (s : String) : decode (encode s) = .ok s := by
  rw [decode, encode, decodeFrom_encode, ok_map, String.ofList_toList]

end TypedSql.Text.Utf8
