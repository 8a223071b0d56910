import HostAccess.Text.Utf16

/-!
# Reading UTF-16 undoes writing it

A character of the first plane is written as itself and is no surrogate, so it is read as
itself. Any other is written as two surrogates, a high one and then a low one, each of which
carries ten of its bits; read together they give the bits back. Neither half is ever read
alone, so nothing that was written is replaced.

* `HostAccess.Utf16.decodeLossy_encode`: reading undoes writing;
* `HostAccess.Utf16.zero_not_mem_encode`: a text without zero characters is written
  without zero units, so a zero unit can end it.
-/

namespace HostAccess

namespace Utf16

/-! ### Units -/

theorem isHigh_iff {u : UInt16} : isHigh u = true ↔ 0xD800 ≤ u.toNat ∧ u.toNat ≤ 0xDBFF := by
  simp [isHigh, UInt16.le_iff_toNat_le]

theorem isLow_iff {u : UInt16} : isLow u = true ↔ 0xDC00 ≤ u.toNat ∧ u.toNat ≤ 0xDFFF := by
  simp [isLow, UInt16.le_iff_toNat_le]

/-- A unit that is no surrogate is a character. -/
theorem decodeChars_cons_of_plain {u : UInt16} (h : u.toNat < 0xD800 ∨ 0xDFFF < u.toNat)
    (rest : List UInt16) : decodeChars (u :: rest) = Char.ofNat u.toNat :: decodeChars rest := by
  have hhigh : ¬isHigh u = true := by
    rw [isHigh_iff]
    omega
  have hlow : ¬isLow u = true := by
    rw [isLow_iff]
    omega
  rw [decodeChars.eq_def]
  simp only [if_neg hhigh, if_neg hlow]

/-- A high surrogate and a low one are a character together. -/
theorem decodeChars_cons_cons {u v : UInt16} (hu : isHigh u = true) (hv : isLow v = true)
    (rest : List UInt16) : decodeChars (u :: v :: rest) = pair u v :: decodeChars rest := by
  rw [decodeChars.eq_def]
  simp only [if_pos hu, if_pos hv]

/-! ### Characters -/

/-- A surrogate pair that carries twice ten bits. -/
theorem decodeChars_pair {high low : Nat} (hhigh : high < 0x400) (hlow : low < 0x400)
    (rest : List UInt16) :
    decodeChars (UInt16.ofNat (0xD800 + high) :: UInt16.ofNat (0xDC00 + low) :: rest) =
      Char.ofNat (0x10000 + high * 0x400 + low) :: decodeChars rest := by
  have hu : (UInt16.ofNat (0xD800 + high)).toNat = 0xD800 + high :=
    UInt16.toNat_ofNat_of_lt' (Nat.lt_trans (Nat.add_lt_add_left hhigh _) (by decide))
  have hv : (UInt16.ofNat (0xDC00 + low)).toNat = 0xDC00 + low :=
    UInt16.toNat_ofNat_of_lt' (Nat.lt_of_lt_of_le (Nat.add_lt_add_left hlow _) (by decide))
  have hbits : 0x10000 + (0xD800 + high) % 0x400 * 0x400 + (0xDC00 + low) % 0x400 =
      0x10000 + high * 0x400 + low := by omega
  rw [decodeChars_cons_cons, pair, hu, hv, hbits]
  · rw [isHigh_iff, hu]
    omega
  · rw [isLow_iff, hv]
    omega

/-- **A written character is read back**, and the reading goes on after it. -/
theorem decodeChars_encodeChar (c : Char) (rest : List UInt16) :
    decodeChars (encodeChar c ++ rest) = c :: decodeChars rest := by
  have hvalid : c.toNat < 0xD800 ∨ 0xDFFF < c.toNat ∧ c.toNat < 0x110000 := c.valid
  have hchar : Char.ofNat c.toNat = c := Char.ofNat_toNat c
  unfold encodeChar
  split
  · rename_i h
    have hunit : (UInt16.ofNat c.toNat).toNat = c.toNat := UInt16.toNat_ofNat_of_lt' h
    rw [List.singleton_append, decodeChars_cons_of_plain (by omega), hunit, hchar]
  · rename_i h
    have hbits : 0x10000 + (c.toNat - 0x10000) / 0x400 * 0x400 + (c.toNat - 0x10000) % 0x400 =
        c.toNat := by omega
    rw [List.cons_append, List.singleton_append,
      decodeChars_pair (by omega) (Nat.mod_lt _ (by decide)), hbits, hchar]

theorem eq_zero_of_zero_mem_encodeChar {c : Char} (h : 0 ∈ encodeChar c) : c = '\x00' := by
  have hvalid : c.toNat < 0xD800 ∨ 0xDFFF < c.toNat ∧ c.toNat < 0x110000 := c.valid
  have hzero : ∀ n, 0 < n → n < 0x10000 → (0 : UInt16) ≠ UInt16.ofNat n := by
    intro n hpos hn he
    have ht : (UInt16.ofNat n).toNat = n := UInt16.toNat_ofNat_of_lt' hn
    rw [← he] at ht
    exact Nat.ne_of_lt hpos ht
  unfold encodeChar at h
  split at h
  · rename_i hn
    rcases Nat.eq_zero_or_pos c.toNat with h0 | hpos
    · rw [← Char.ofNat_toNat c, h0]
    · exact absurd (List.mem_singleton.1 h) (hzero _ hpos hn)
  · -- A surrogate is not zero.
    simp only [List.mem_cons, List.not_mem_nil, or_false] at h
    rcases h with h | h
    · exact absurd h (hzero _ (by omega) (by omega))
    · exact absurd h (hzero _ (by omega) (by omega))

/-! ### Texts -/

theorem decodeChars_flatMap_encodeChar (cs : List Char) :
    decodeChars (cs.flatMap encodeChar) = cs := by
  induction cs with
  | nil => rfl
  | cons c cs ih => rw [List.flatMap_cons, decodeChars_encodeChar, ih]

/-- **Reading undoes writing**: the units of a text are read as that text. -/
theorem decodeLossy_encode (s : String) : decodeLossy (encode s) = s := by
  rw [decodeLossy, encode, decodeChars_flatMap_encodeChar, String.ofList_toList]

theorem encode_eq_nil {s : String} : encode s = [] ↔ s = "" := by
  constructor
  · intro h
    rw [← decodeLossy_encode s, h]
    rfl
  · rintro rfl
    rfl

/-- Only a zero character has a zero unit. -/
theorem zero_not_mem_encode {s : String} (h : '\x00' ∉ s.toList) : 0 ∉ encode s := by
  intro hmem
  obtain ⟨c, hc, h0⟩ := List.mem_flatMap.1 hmem
  exact h (eq_zero_of_zero_mem_encodeChar h0 ▸ hc)

end Utf16

end HostAccess
