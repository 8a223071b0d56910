import HostAccess.Text.Utf8
import Mathlib.Tactic.IntervalCases

/-!
# Reading UTF-8 undoes writing it

The bytes of a text are well formed, so reading them replaces nothing: the automaton of
`HostAccess.Utf8.scan` finds exactly the characters that were written. It is enough to
follow it over the bytes of a single character, whatever comes after them
(`HostAccess.Utf8.scan_encodeChar`). There are four lengths, and for each the point is
that the first continuation byte is in the range its lead byte narrows it to – which is
where a surrogate or an overlong form would fail.

* `HostAccess.Utf8.decodeLossy_encode`: reading undoes writing;
* `HostAccess.Utf8.zero_not_mem_encode`: a text without zero characters is written
  without zero bytes, so a zero byte can end it.
-/

namespace HostAccess

namespace Utf8

/-! ### Lead bytes -/

/-- A lead byte of two carries five bits. -/
theorem lead?_two {n : Nat} (h : 2 ≤ n) (hn : n < 32) :
    lead? (UInt8.ofNat (n + 0xC0)) = some ⟨n, 0x80, 0xBF, 0⟩ := by
  interval_cases n <;> rfl

/-- A lead byte of three carries four bits, and narrows the next byte for two values. -/
theorem lead?_three {n : Nat} (hn : n < 16) :
    lead? (UInt8.ofNat (n + 0xE0)) =
      some ⟨n, if n = 0 then 0xA0 else 0x80, if n = 13 then 0x9F else 0xBF, 1⟩ := by
  interval_cases n <;> rfl

/-- A lead byte of four carries three bits, and narrows the next byte for two values. -/
theorem lead?_four {n : Nat} (hn : n ≤ 4) :
    lead? (UInt8.ofNat (n + 0xF0)) =
      some ⟨n, if n = 0 then 0x90 else 0x80, if n = 4 then 0x8F else 0xBF, 2⟩ := by
  interval_cases n <;> rfl

theorem lead?_eq_none_of_lt {b : UInt8} (h : b < 0x80) : lead? b = none := by
  rw [UInt8.lt_iff_toNat_lt] at h
  unfold lead?
  simp only [UInt8.le_iff_toNat_le, ← UInt8.toNat_inj]
  simp only [UInt8.reduceToNat] at *
  grind

theorem scan_cons_of_lead? {b : UInt8} {p : Pending} (h : lead? b = some p) (rest : Bytes) :
    scan (b :: rest) = scanFrom (some p) rest := by
  have hb : ¬b < 0x80 := fun hlt => by
    rw [lead?_eq_none_of_lt hlt] at h
    cases h
  simp only [scan, scanFrom, step, start, if_neg hb, h, List.nil_append]

/-! ### Continuation bytes -/

section Continuation

variable {bits n : Nat} {low high : UInt8} (hn : n < 64) (hlow : low.toNat ≤ n + 0x80)
  (hhigh : n + 0x80 ≤ high.toNat)

include hn hlow hhigh

/-- The continuation byte of six bits is in range and gives them back. -/
theorem continuation_in_range :
    (low ≤ UInt8.ofNat (n + 0x80) ∧ UInt8.ofNat (n + 0x80) ≤ high) ∧
      (UInt8.ofNat (n + 0x80)).toNat % 64 = n := by
  have hb : (UInt8.ofNat (n + 0x80)).toNat = n + 0x80 :=
    UInt8.toNat_ofNat_of_lt' (lt_of_lt_of_le (Nat.add_lt_add_right hn _) (by decide))
  rw [UInt8.le_iff_toNat_le, UInt8.le_iff_toNat_le, hb]
  exact ⟨⟨hlow, hhigh⟩, by omega⟩

theorem scanFrom_last (rest : Bytes) :
    scanFrom (some ⟨bits, low, high, 0⟩) (UInt8.ofNat (n + 0x80) :: rest) =
      some (Char.ofNat (bits * 64 + n)) :: scan rest := by
  obtain ⟨hr, hbits⟩ := continuation_in_range hn hlow hhigh
  simp only [scanFrom, step, if_pos hr, hbits, List.cons_append, List.nil_append, scan]

theorem scanFrom_more {more : Nat} (rest : Bytes) :
    scanFrom (some ⟨bits, low, high, more + 1⟩) (UInt8.ofNat (n + 0x80) :: rest) =
      scanFrom (some ⟨bits * 64 + n, 0x80, 0xBF, more⟩) rest := by
  obtain ⟨hr, hbits⟩ := continuation_in_range hn hlow hhigh
  simp only [scanFrom, step, if_pos hr, hbits, List.nil_append]

end Continuation

/-! ### Whole characters

One lemma for each length. The bytes are those core writes, so a character is followed by
rewriting along them; the ranges are left to arithmetic. -/

theorem scan_one {v : Nat} (h : v < 0x80) (rest : Bytes) :
    scan (UInt8.ofNat v :: rest) = some (Char.ofNat v) :: scan rest := by
  have ht : (UInt8.ofNat v).toNat = v := UInt8.toNat_ofNat_of_lt' (lt_trans h (by decide))
  have hb : UInt8.ofNat v < 0x80 := by
    rw [UInt8.lt_iff_toNat_lt, ht]
    exact h
  simp only [scan, scanFrom, step, start, if_pos hb, ht, List.cons_append, List.nil_append]

theorem scan_two {v : Nat} (h : 0x80 ≤ v) (hv : v < 0x800) (rest : Bytes) :
    scan (UInt8.ofNat (v / 64 % 0x20 + 0xC0) :: UInt8.ofNat (v % 0x40 + 0x80) :: rest) =
      some (Char.ofNat v) :: scan rest := by
  have h₁ : v / 64 % 0x20 = v / 64 := by omega
  have hbits : v / 64 * 64 + v % 0x40 = v := by omega
  rw [h₁, scan_cons_of_lead? (lead?_two (by omega) (by omega)),
    scanFrom_last (by omega) (Nat.le_add_left ..) (by simp; omega), hbits]

theorem scan_three {v : Nat} (h : 0x800 ≤ v) (hv : v < 0x10000)
    (hs : v < 0xD800 ∨ 0xDFFF < v) (rest : Bytes) :
    scan (UInt8.ofNat (v / 4096 % 0x10 + 0xE0) :: UInt8.ofNat (v / 64 % 0x40 + 0x80) ::
        UInt8.ofNat (v % 0x40 + 0x80) :: rest) =
      some (Char.ofNat v) :: scan rest := by
  have h₁ : v / 4096 % 0x10 = v / 4096 := by omega
  have hbits : (v / 4096 * 64 + v / 64 % 0x40) * 64 + v % 0x40 = v := by omega
  rw [h₁, scan_cons_of_lead? (lead?_three (by omega)), scanFrom_more (by omega),
    scanFrom_last (by omega) (Nat.le_add_left ..) (by simp; omega), hbits]
  -- below, what is no overlong form; above, what is no surrogate
  · split
    · simp; omega
    · simp
  · split
    · simp; omega
    · simp; omega

theorem scan_four {v : Nat} (h : 0x10000 ≤ v) (hv : v < 0x110000) (rest : Bytes) :
    scan (UInt8.ofNat (v / 262144 % 0x08 + 0xF0) :: UInt8.ofNat (v / 4096 % 0x40 + 0x80) ::
        UInt8.ofNat (v / 64 % 0x40 + 0x80) :: UInt8.ofNat (v % 0x40 + 0x80) :: rest) =
      some (Char.ofNat v) :: scan rest := by
  have h₁ : v / 262144 % 0x08 = v / 262144 := by omega
  have hbits : ((v / 262144 * 64 + v / 4096 % 0x40) * 64 + v / 64 % 0x40) * 64 + v % 0x40 = v := by
    omega
  rw [h₁, scan_cons_of_lead? (lead?_four (by omega)), scanFrom_more (by omega),
    scanFrom_more (by omega) (Nat.le_add_left ..) (by simp; omega),
    scanFrom_last (by omega) (Nat.le_add_left ..) (by simp; omega), hbits]
  -- below, what is no overlong form; above, what is not past the last code point
  · split
    · simp; omega
    · simp
  · split
    · simp; omega
    · simp; omega

/-- **An encoded character is read back**, and the reading goes on after it. -/
theorem scan_encodeChar (c : Char) (rest : Bytes) :
    scan (String.utf8EncodeChar c ++ rest) = some c :: scan rest := by
  have hc : c.toNat < 0xD800 ∨ 0xDFFF < c.toNat ∧ c.toNat < 0x110000 := c.valid
  have hchar : Char.ofNat c.val.toNat = c := Char.ofNat_toNat c
  change c.val.toNat < _ ∨ _ < c.val.toNat ∧ c.val.toNat < _ at hc
  fun_cases String.utf8EncodeChar c with
  | case1 v h =>
    exact (scan_one (by omega) rest).trans (by rw [hchar])
  | case2 v h₁ h₂ =>
    exact (scan_two (by omega) (by omega) rest).trans (by rw [hchar])
  | case3 v h₁ h₂ h₃ =>
    exact (scan_three (by omega) (by omega) (by omega) rest).trans (by rw [hchar])
  | case4 v h₁ h₂ h₃ =>
    exact (scan_four (by omega) (by omega) rest).trans (by rw [hchar])

theorem zero_ne_ofNat {n : Nat} (h : 0 < n) (hn : n < 256) : (0 : UInt8) ≠ UInt8.ofNat n := by
  intro he
  have ht : (UInt8.ofNat n).toNat = n := UInt8.toNat_ofNat_of_lt' hn
  rw [← he] at ht
  exact h.ne ht

theorem eq_zero_of_zero_mem_encodeChar {c : Char} :
    0 ∈ String.utf8EncodeChar c → c = '\x00' := by
  have hchar : Char.ofNat c.val.toNat = c := Char.ofNat_toNat c
  fun_cases String.utf8EncodeChar c with
  | case1 v hv =>
    intro h
    rw [List.mem_singleton] at h
    rcases Nat.eq_zero_or_pos v with h0 | hpos
    · rw [← hchar]
      exact congrArg Char.ofNat h0
    · exact absurd h (zero_ne_ofNat hpos (by omega))
  | case2 v h₁ h₂ =>
    simp only [List.mem_cons, List.not_mem_nil, or_false]
    rintro (h | h) <;> exact absurd h (zero_ne_ofNat (by omega) (by omega))
  | case3 v h₁ h₂ h₃ =>
    simp only [List.mem_cons, List.not_mem_nil, or_false]
    rintro (h | h | h) <;> exact absurd h (zero_ne_ofNat (by omega) (by omega))
  | case4 v h₁ h₂ h₃ =>
    simp only [List.mem_cons, List.not_mem_nil, or_false]
    rintro (h | h | h | h) <;> exact absurd h (zero_ne_ofNat (by omega) (by omega))

/-! ### Texts -/

theorem scan_flatMap_encodeChar (cs : List Char) :
    scan (cs.flatMap String.utf8EncodeChar) = cs.map some := by
  induction cs with
  | nil => rfl
  | cons c cs ih => rw [List.flatMap_cons, scan_encodeChar, ih, List.map_cons]

theorem scan_encode (s : String) : scan (encode s) = s.toList.map some :=
  scan_flatMap_encodeChar s.toList

/-- **Reading undoes writing**: the bytes of a text are read as that text. -/
theorem decodeLossy_encode (s : String) : decodeLossy (encode s) = s := by
  rw [decodeLossy, scan_encode, List.map_map]
  have hid : ((fun c => c.getD replacement) ∘ some : Char → Char) = id := rfl
  rw [hid, List.map_id, String.ofList_toList]

/-- Bytes below 128 are the characters of the same numbers. -/
theorem decodeLossy_of_ascii {bytes : Bytes} (h : ∀ b ∈ bytes, b < 0x80) :
    decodeLossy bytes = String.ofList (bytes.map fun b => Char.ofNat b.toNat) := by
  have hscan : scan bytes = bytes.map fun b => some (Char.ofNat b.toNat) := by
    induction bytes with
    | nil => rfl
    | cons b bytes ih =>
      obtain ⟨hb, hbytes⟩ := List.forall_mem_cons.1 h
      have hone := scan_one (UInt8.lt_iff_toNat_lt.1 hb) bytes
      rw [UInt8.ofNat_toNat] at hone
      rw [hone, ih hbytes, List.map_cons]
  rw [decodeLossy, hscan, List.map_map]
  rfl

theorem encode_eq_nil {s : String} : encode s = [] ↔ s = "" := by
  constructor
  · intro h
    rw [← decodeLossy_encode s, h]
    rfl
  · rintro rfl
    rfl

/-- Only a zero character has a zero byte. -/
theorem zero_not_mem_encode {s : String} (h : '\x00' ∉ s.toList) : 0 ∉ encode s := by
  intro hmem
  obtain ⟨c, hc, h0⟩ := List.mem_flatMap.1 hmem
  exact h (eq_zero_of_zero_mem_encodeChar h0 ▸ hc)

end Utf8

end HostAccess
