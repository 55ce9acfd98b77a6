/-
UTF-8 is read back.

The first byte of a character tells how many bytes follow and in which range the next one lies, and
each further byte adds six bits.  So the decoder is followed byte by byte through the bytes of one
character: it owes what the encoder still has to give, and after the last byte it has the number of
the character.

* `first_two`, `first_three`, `first_four` — what the first byte of a character tells;
* `decodeFrom_next`, `decodeFrom_last` — what the decoder makes of the other bytes;
* `decodeFrom_utf8EncodeChar` — the bytes of one character;
* `decode_encode` — characters are read back from their bytes.
-/
import IncludeTrace.Text.Utf8

namespace IncludeTrace.Text.Utf8

variable {v bits more least greatest : Nat} {rest : List UInt8}

/-! ### First bytes -/

theorem first_two (hleast : 0x80 ≤ v) (hgreatest : v < 0x800) :
    first (v / 64 % 32 + 192) = ([], some ⟨v / 64, 0, 0x80, 0xBF⟩) := by
  have hbits : (v / 64 % 32 + 192) % 0x20 = v / 64 := by omega
  rw [first, if_neg (by omega), if_pos (by omega), hbits]

/-- The second of three bytes lies in the range that the first one tells, because the numbers of
surrogates are no characters. -/
theorem first_three (hleast : 0x800 ≤ v) (hgreatest : v < 0x10000)
    (hvalid : v < 0xD800 ∨ 0xDFFF < v) :
    ∃ least greatest, first (v / 4096 % 16 + 224) = ([], some ⟨v / 4096, 1, least, greatest⟩) ∧
      least ≤ v / 64 % 64 + 128 ∧ v / 64 % 64 + 128 ≤ greatest := by
  have hbits : (v / 4096 % 16 + 224) % 0x10 = v / 4096 := by omega
  rw [first, if_neg (by omega), if_neg (by omega)]
  by_cases hlow : v / 4096 % 16 + 224 = 0xE0
  · exact ⟨0xA0, 0xBF, by rw [if_pos hlow, hbits], by omega, by omega⟩
  · rw [if_neg hlow]
    by_cases hhigh : v / 4096 % 16 + 224 = 0xED
    · exact ⟨0x80, 0x9F, by rw [if_pos hhigh, hbits], by omega, by omega⟩
    · exact ⟨0x80, 0xBF, by rw [if_neg hhigh, if_pos (by omega), hbits], by omega, by omega⟩

/-- The second of four bytes lies in the range that the first one tells, because no character is
beyond the last plane. -/
theorem first_four (hleast : 0x10000 ≤ v) (hgreatest : v < 0x110000) :
    ∃ least greatest, first (v / 262144 % 8 + 240) = ([], some ⟨v / 262144, 2, least, greatest⟩) ∧
      least ≤ v / 4096 % 64 + 128 ∧ v / 4096 % 64 + 128 ≤ greatest := by
  have hbits : (v / 262144 % 8 + 240) % 0x08 = v / 262144 := by omega
  rw [first, if_neg (by omega), if_neg (by omega), if_neg (by omega), if_neg (by omega),
    if_neg (by omega)]
  by_cases hlow : v / 262144 % 8 + 240 = 0xF0
  · exact ⟨0x90, 0xBF, by rw [if_pos hlow, hbits], by omega, by omega⟩
  · rw [if_neg hlow]
    by_cases hhigh : v / 262144 % 8 + 240 = 0xF4
    · refine ⟨0x80, 0x8F, ?_, by omega, by omega⟩
      rw [if_neg (by omega), if_pos hhigh, hbits]
    · exact ⟨0x80, 0xBF, by rw [if_pos (by omega), hbits], by omega, by omega⟩

theorem decodeFrom_first {n : Nat} (h : n < 256) (rest : List UInt8) :
    decodeFrom none (UInt8.ofNat n :: rest) = (first n).1 ++ decodeFrom (first n).2 rest := by
  have hbyte : (UInt8.ofNat n).toNat = n := UInt8.toNat_ofNat_of_lt' h
  rw [decodeFrom, hbyte]
  rfl

/-! ### Further bytes -/

theorem toNat_tail (n : Nat) : (UInt8.ofNat (n % 64 + 128)).toNat = n % 64 + 128 := by
  have hbyte : n % 64 + 128 < 256 := by omega
  exact UInt8.toNat_ofNat_of_lt' hbyte

/-- A byte of which others follow adds its six bits to what is owed. -/
theorem decodeFrom_next (n : Nat) (hleast : least ≤ n % 64 + 128)
    (hgreatest : n % 64 + 128 ≤ greatest) :
    decodeFrom (some ⟨bits, more + 1, least, greatest⟩) (UInt8.ofNat (n % 64 + 128) :: rest)
      = decodeFrom (some ⟨bits * 64 + n % 64, more, 0x80, 0xBF⟩) rest := by
  have hbits : (n % 64 + 128) % 0x40 = n % 64 := by omega
  rw [decodeFrom, toNat_tail, step, if_pos ⟨hleast, hgreatest⟩, hbits]
  rfl

/-- The last byte gives the character. -/
theorem decodeFrom_last (n : Nat) (hleast : least ≤ n % 64 + 128)
    (hgreatest : n % 64 + 128 ≤ greatest) :
    decodeFrom (some ⟨bits, 0, least, greatest⟩) (UInt8.ofNat (n % 64 + 128) :: rest)
      = Char.ofNat (bits * 64 + n % 64) :: decodeFrom none rest := by
  have hbits : (n % 64 + 128) % 0x40 = n % 64 := by omega
  rw [decodeFrom, toNat_tail, step, if_pos ⟨hleast, hgreatest⟩, hbits]
  rfl

/-! ### Characters -/

theorem decodeFrom_utf8EncodeChar (c : Char) (rest : List UInt8) :
    decodeFrom none (String.utf8EncodeChar c ++ rest) = c :: decodeFrom none rest := by
  have hvalid : c.val.toNat < 0xD800 ∨ 0xDFFF < c.val.toNat ∧ c.val.toNat < 0x110000 := c.valid
  have hback : ∀ n, n = c.val.toNat → Char.ofNat n = c := by
    rintro n rfl
    exact Char.ofNat_toNat c
  rw [String.utf8EncodeChar.eq_def]
  dsimp only
  -- From here on only the number of the character matters, in the four ranges of the encoding.
  generalize c.val.toNat = v at hvalid hback ⊢
  by_cases hone : v ≤ 0x7F
  · rw [if_pos hone, List.singleton_append, decodeFrom_first (by omega), first,
      if_pos (by omega), hback v rfl]
    rfl
  rw [if_neg hone]
  by_cases htwo : v ≤ 0x7FF
  · rw [if_pos htwo, List.cons_append, List.singleton_append, decodeFrom_first (by omega),
      first_two (by omega) (by omega), List.nil_append,
      decodeFrom_last v (by omega) (by omega), hback _ (by omega)]
  rw [if_neg htwo]
  by_cases hthree : v ≤ 0xFFFF
  · obtain ⟨least, greatest, hfirst, hleast, hgreatest⟩ :=
      first_three (v := v) (by omega) (by omega) (by omega)
    rw [if_pos hthree, List.cons_append, List.cons_append, List.singleton_append,
      decodeFrom_first (by omega), hfirst, List.nil_append,
      decodeFrom_next (v / 64) hleast hgreatest, decodeFrom_last v (by omega) (by omega),
      hback _ (by omega)]
  · obtain ⟨least, greatest, hfirst, hleast, hgreatest⟩ :=
      first_four (v := v) (by omega) (by omega)
    rw [if_neg hthree, List.cons_append, List.cons_append, List.cons_append,
      List.singleton_append, decodeFrom_first (by omega), hfirst, List.nil_append,
      decodeFrom_next (v / 4096) hleast hgreatest,
      decodeFrom_next (v / 64) (by omega) (by omega), decodeFrom_last v (by omega) (by omega),
      hback _ (by omega)]

/-- Characters are read back from their bytes. -/
theorem decode_encode (s : List Char) : decode (encode s) = s := by
  induction s with
  | nil => rfl
  | cons c s ih =>
    rw [decode, encode, List.flatMap_cons, decodeFrom_utf8EncodeChar, ← encode, ← decode, ih]

end IncludeTrace.Text.Utf8
