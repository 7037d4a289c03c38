import BlockProgram.Text.Utf8

/-
  The bytes of a text are decoded as the text.

  A character of more than one byte is a leading byte with
  its highest bits, and a byte for each six bits more.  The
  bounds of the second byte are met since no character has a
  shorter form and none is a surrogate.

  Main declarations:
    * `Utf8.encode`
    * `Utf8.decodeFrom_encodeChar`
    * `Utf8.decode_encode`
-/

namespace BlockProgram

namespace Utf8

------------------------------------------------------------
-- Bytes Of A Text
------------------------------------------------------------

/- The bytes of a text. -/
def encode (source : String) : List UInt8 :=
  source.toUTF8.data.toList

theorem encode_eq_flatMap (source : String) :
    encode source =
      source.toList.flatMap String.utf8EncodeChar := by
  have hBytes : source.toUTF8 = source.toList.utf8Encode := by
    rw [String.toUTF8_eq_toByteArray]
    exact (String.utf8Encode_toList).symm
  rw [encode, hBytes, List.utf8Encode, List.data_toByteArray]

------------------------------------------------------------
-- Single Bytes
------------------------------------------------------------

section Bytes

variable {start length value : Nat}
variable {byte bits : Nat}
variable {first : Bounds}
variable {rest : List UInt8}

theorem toNat_ofNat
    (hByte : byte < 0x100) :
    (UInt8.ofNat byte).toNat = byte := by
  rw [UInt8.toNat_ofNat', Nat.mod_eq_of_lt hByte]

/- A byte that is a character by itself. -/
theorem decodeFrom_ascii
    (hByte : byte < 0x80) :
    decodeFrom start 0 0 [] (UInt8.ofNat byte :: rest) =
      (decodeFrom (start + 1) 0 0 [] rest).map
        (Char.ofNat byte :: ·) := by
  have hNat : (UInt8.ofNat byte).toNat = byte :=
    toNat_ofNat (by omega)
  rw [decodeFrom]
  simp only [hNat, if_pos hByte]
  cases decodeFrom (start + 1) 0 0 [] rest <;> rfl

/- A byte that leads others. -/
theorem decodeFrom_lead
    {bounds : List Bounds}
    (hLead : 0x80 ≤ byte)
    (hByte : byte < 0x100)
    (hBounds : tailBounds byte = first :: bounds) :
    decodeFrom start 0 0 [] (UInt8.ofNat byte :: rest) =
      decodeFrom start 1 (leadBits byte) (first :: bounds)
        rest := by
  rw [decodeFrom]
  simp only [toNat_ofNat hByte, if_neg (Nat.not_lt.mpr hLead),
    hBounds]

/- A byte with six bits of a character that has more. -/
theorem decodeFrom_tail
    (hBits : bits < 0x40)
    (hFirst : first.1 ≤ bits + 0x80 ∧ bits + 0x80 ≤ first.2)
    (next : Bounds)
    (bounds : List Bounds) :
    decodeFrom start length value
        (first :: next :: bounds)
        (UInt8.ofNat (bits + 0x80) :: rest) =
      decodeFrom start (length + 1) (value * 0x40 + bits)
        (next :: bounds) rest := by
  have hNat : (UInt8.ofNat (bits + 0x80)).toNat = bits + 0x80 :=
    toNat_ofNat (by omega)
  have hValue : (bits + 0x80) % 0x40 = bits := by
    omega
  rw [decodeFrom]
  simp only [hNat, hValue, if_pos hFirst]

/- The byte with the last six bits of a character. -/
theorem decodeFrom_last
    (hBits : bits < 0x40)
    (hFirst : first.1 ≤ bits + 0x80 ∧ bits + 0x80 ≤ first.2) :
    decodeFrom start length value [first]
        (UInt8.ofNat (bits + 0x80) :: rest) =
      (decodeFrom (start + length + 1) 0 0 [] rest).map
        (Char.ofNat (value * 0x40 + bits) :: ·) := by
  have hNat : (UInt8.ofNat (bits + 0x80)).toNat = bits + 0x80 :=
    toNat_ofNat (by omega)
  have hValue : (bits + 0x80) % 0x40 = bits := by
    omega
  rw [decodeFrom]
  simp only [hNat, hValue, if_pos hFirst]
  cases decodeFrom (start + length + 1) 0 0 [] rest <;> rfl

/- Any six bits will do where no bounds are set. -/
theorem anyTail_bounds
    (hBits : bits < 0x40) :
    anyTail.1 ≤ bits + 0x80 ∧ bits + 0x80 ≤ anyTail.2 := by
  simp only [anyTail]
  omega

end Bytes

------------------------------------------------------------
-- Leading Bytes
------------------------------------------------------------

section Leads

variable {n : Nat}

theorem tailBounds_of_two
    (hLeast : 0x80 ≤ n)
    (hGreatest : n ≤ 0x7FF) :
    tailBounds (n / 0x40 + 0xC0) = [anyTail] := by
  rw [tailBounds, if_pos (by omega)]

/-
  The second of three bytes is within bounds, since the
  character is no surrogate and not one of two bytes.
-/
theorem tailBounds_of_three
    (hLeast : 0x800 ≤ n)
    (hGreatest : n ≤ 0xFFFF)
    (hValid : n < 0xD800 ∨ 0xDFFF < n) :
    ∃ first,
      tailBounds (n / 0x1000 + 0xE0) = [first, anyTail] ∧
        first.1 ≤ n / 0x40 % 0x40 + 0x80 ∧
        n / 0x40 % 0x40 + 0x80 ≤ first.2 := by
  rw [tailBounds, if_neg (by omega)]
  by_cases hFirst : n / 0x1000 + 0xE0 = 0xE0
  · rw [if_pos hFirst]
    exact ⟨_, rfl, by simp only; omega⟩
  · rw [if_neg hFirst]
    by_cases hSurrogate : n / 0x1000 + 0xE0 = 0xED
    · rw [if_pos hSurrogate]
      exact ⟨_, rfl, by simp only; omega⟩
    · rw [if_neg hSurrogate, if_pos (by omega)]
      exact ⟨_, rfl, anyTail_bounds (by omega)⟩

/-
  The second of four bytes is within bounds, since the
  character is one of no more than the last code point and
  not one of three bytes.
-/
theorem tailBounds_of_four
    (hLeast : 0x10000 ≤ n)
    (hGreatest : n < 0x110000) :
    ∃ first,
      tailBounds (n / 0x40000 + 0xF0) =
          [first, anyTail, anyTail] ∧
        first.1 ≤ n / 0x1000 % 0x40 + 0x80 ∧
        n / 0x1000 % 0x40 + 0x80 ≤ first.2 := by
  rw [tailBounds, if_neg (by omega), if_neg (by omega),
    if_neg (by omega), if_neg (by omega)]
  by_cases hFirst : n / 0x40000 + 0xF0 = 0xF0
  · rw [if_pos hFirst]
    exact ⟨_, rfl, by simp only; omega⟩
  · rw [if_neg hFirst]
    by_cases hLast : n / 0x40000 + 0xF0 = 0xF4
    · rw [if_pos hLast]
      exact ⟨_, rfl, by simp only; omega⟩
    · rw [if_neg hLast, if_pos (by omega)]
      exact ⟨_, rfl, anyTail_bounds (by omega)⟩

end Leads

------------------------------------------------------------
-- Characters And Texts
------------------------------------------------------------

/- The bytes of a character are decoded as the character. -/
theorem decodeFrom_encodeChar
    (c : Char)
    (start : Nat)
    (rest : List UInt8) :
    ∃ next,
      decodeFrom start 0 0 [] (String.utf8EncodeChar c ++ rest) =
        (decodeFrom next 0 0 [] rest).map (c :: ·) := by
  have hChar {n : Nat} (hNat : n = c.toNat) : Char.ofNat n = c := by
    rw [hNat, Char.ofNat_toNat]
  have hValid :
      c.toNat < 0xD800 ∨ 0xDFFF < c.toNat ∧ c.toNat < 0x110000 :=
    c.valid
  have hSame : c.val.toNat = c.toNat := rfl
  have hMod (n : Nat) : n % 0x40 < 0x40 := Nat.mod_lt n (by omega)
  rw [String.utf8EncodeChar, hSame]
  by_cases hOne : c.toNat ≤ 0x7F
  · refine ⟨start + 1, ?_⟩
    rw [if_pos hOne, List.singleton_append,
      decodeFrom_ascii (by omega), hChar rfl]
  by_cases hTwo : c.toNat ≤ 0x7FF
  · have hLead :
        c.toNat / 0x40 % 0x20 + 0xC0 = c.toNat / 0x40 + 0xC0 := by
      omega
    refine ⟨start + 1 + 1, ?_⟩
    rw [if_neg hOne, if_pos hTwo, List.cons_append,
      List.singleton_append, hLead,
      decodeFrom_lead (by omega) (by omega)
        (tailBounds_of_two (by omega) hTwo),
      decodeFrom_last (hMod _) (anyTail_bounds (hMod _)),
      hChar (by rw [leadBits, if_pos (by omega)]; omega)]
  by_cases hThree : c.toNat ≤ 0xFFFF
  · have hLead :
        c.toNat / 0x1000 % 0x10 + 0xE0 =
          c.toNat / 0x1000 + 0xE0 := by
      omega
    rcases tailBounds_of_three (n := c.toNat) (by omega)
        (by omega) (by omega) with
      ⟨second, hBounds, hSecond⟩
    refine ⟨start + 2 + 1, ?_⟩
    rw [if_neg hOne, if_neg hTwo, if_pos hThree,
      List.cons_append, List.cons_append, List.singleton_append,
      hLead, decodeFrom_lead (by omega) (by omega) hBounds,
      decodeFrom_tail (hMod _) hSecond,
      decodeFrom_last (hMod _) (anyTail_bounds (hMod _)),
      hChar (by
        rw [leadBits, if_neg (by omega), if_pos (by omega)]
        omega)]
  · have hLead :
        c.toNat / 0x40000 % 0x08 + 0xF0 =
          c.toNat / 0x40000 + 0xF0 := by
      omega
    rcases tailBounds_of_four (n := c.toNat) (by omega)
        (by omega) with
      ⟨second, hBounds, hSecond⟩
    refine ⟨start + 3 + 1, ?_⟩
    rw [if_neg hOne, if_neg hTwo, if_neg hThree,
      List.cons_append, List.cons_append, List.cons_append,
      List.singleton_append, hLead,
      decodeFrom_lead (by omega) (by omega) hBounds,
      decodeFrom_tail (hMod _) hSecond,
      decodeFrom_tail (hMod _) (anyTail_bounds (hMod _)),
      decodeFrom_last (hMod _) (anyTail_bounds (hMod _)),
      hChar (by
        rw [leadBits, if_neg (by omega), if_neg (by omega)]
        omega)]

/- The bytes of characters are decoded as the characters. -/
theorem decodeFrom_flatMap_encodeChar
    (chars : List Char)
    (start : Nat) :
    decodeFrom start 0 0 []
        (chars.flatMap String.utf8EncodeChar) =
      .ok chars := by
  induction chars generalizing start with
  | nil => rw [List.flatMap_nil, decodeFrom]
  | cons c cs ih =>
      rcases decodeFrom_encodeChar c start
          (cs.flatMap String.utf8EncodeChar) with
        ⟨next, hNext⟩
      rw [List.flatMap_cons, hNext, ih next, Except.map]

/- The bytes of a text are decoded as the text. -/
theorem decode_encode (source : String) :
    decode (encode source) = .ok source := by
  rw [decode, encode_eq_flatMap, decodeFrom_flatMap_encodeChar]
  simp only [String.ofList_toList]

end Utf8

end BlockProgram
