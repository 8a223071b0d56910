import HostAccess.Proofs.Text.Utf8

/-!
# What is read without replacement

A byte string has a text only if the automaton of `HostAccess.Utf8.scan` meets no broken
piece in it. This file says which byte strings those are, without the automaton: exactly
the bytes of some text (`HostAccess.Utf8.decode?_eq_some`). One half is that reading
undoes writing. For the other half a character that was read is written again: the ranges
that its lead byte left to the byte after it are just those in which the character is
neither overlong nor a surrogate nor past the last code point, so it is written with as
many bytes as were read, and these are the same.

A one-byte character starts no sequence and continues none, so whatever is pending in
front of it is broken (`HostAccess.Utf8.scanFrom_append_cons`). Where the bytes of a text are
cut at such a character, there are therefore the bytes of a text on either side
(`HostAccess.Utf8.exists_encode_of_append_cons`).
-/

namespace HostAccess

namespace Utf8

/-! ### Characters and broken pieces -/

/-- Reading succeeds on characters without a broken piece among them. -/
theorem mapM_id_eq_some {pieces : List (Option Char)} {cs : List Char} :
    pieces.mapM id = some cs ↔ pieces = cs.map some := by
  induction pieces generalizing cs with
  | nil => cases cs <;> simp
  | cons piece pieces ih =>
    have hcons : (piece :: pieces).mapM id =
        piece.bind fun c => (pieces.mapM id).map (c :: ·) := by
      rw [List.mapM_cons]
      cases piece <;> cases pieces.mapM id <;> rfl
    rw [hcons]
    cases piece with
    | none => cases cs <;> simp
    | some c =>
      rw [Option.bind_some, Option.map_eq_some_iff]
      constructor
      · rintro ⟨cs', h, rfl⟩
        rw [ih.1 h, List.map_cons]
      · intro h
        cases cs with
        | nil => cases h
        | cons c' cs' =>
          obtain ⟨hc, hcs⟩ := List.cons.inj h
          exact ⟨cs', ih.2 hcs, by rw [Option.some.inj hc]⟩

theorem decode?_eq_some_iff_scan {bytes : Bytes} {s : String} :
    decode? bytes = some s ↔ scan bytes = s.toList.map some := by
  rw [decode?, Option.map_eq_some_iff]
  constructor
  · rintro ⟨cs, hcs, rfl⟩
    rw [String.toList_ofList]
    exact mapM_id_eq_some.1 hcs
  · intro h
    exact ⟨s.toList, mapM_id_eq_some.2 h, String.ofList_toList⟩

/-! ### Sequences that are completed -/

/-- What a lead byte leaves to the byte after it, for each length. -/
theorem lead?_eq_some {b : UInt8} {p : Pending} (h : lead? b = some p) :
    (0xC2 ≤ b.toNat ∧ b.toNat ≤ 0xDF ∧ p = ⟨b.toNat % 32, 0x80, 0xBF, 0⟩) ∨
    (0xE0 ≤ b.toNat ∧ b.toNat ≤ 0xEF ∧ ∃ low high, p = ⟨b.toNat % 16, low, high, 1⟩ ∧
      0x80 ≤ low.toNat ∧ high.toNat ≤ 0xBF ∧
      (b.toNat = 0xE0 → 0xA0 ≤ low.toNat) ∧ (b.toNat = 0xED → high.toNat ≤ 0x9F)) ∨
    (0xF0 ≤ b.toNat ∧ b.toNat ≤ 0xF4 ∧ ∃ low high, p = ⟨b.toNat % 8, low, high, 2⟩ ∧
      0x80 ≤ low.toNat ∧ high.toNat ≤ 0xBF ∧
      (b.toNat = 0xF0 → 0x90 ≤ low.toNat) ∧ (b.toNat = 0xF4 → high.toNat ≤ 0x8F)) := by
  unfold lead? at h
  simp only [UInt8.le_iff_toNat_le, ← UInt8.toNat_inj] at h
  simp only [UInt8.reduceToNat] at h
  split at h
  · exact .inl ⟨by omega, by omega, (Option.some.inj h).symm⟩
  split at h
  · rename_i hb
    refine .inr (.inl ⟨by omega, by omega, 0xA0, 0xBF, ?_, by simp [hb]⟩)
    rw [← Option.some.inj h, hb]
  split at h
  · rename_i hb
    refine .inr (.inl ⟨by omega, by omega, 0x80, 0x9F, ?_, by simp [hb]⟩)
    rw [← Option.some.inj h, hb]
  split at h
  · rename_i hzero hsurrogate hb
    exact .inr (.inl ⟨by omega, by omega, 0x80, 0xBF, (Option.some.inj h).symm,
      by simp [hzero, hsurrogate]⟩)
  split at h
  · rename_i hb
    refine .inr (.inr ⟨by omega, by omega, 0x90, 0xBF, ?_, by simp [hb]⟩)
    rw [← Option.some.inj h, hb]
  split at h
  · rename_i hzero hb
    have hlast : b.toNat ≠ 0xF4 := by omega
    exact .inr (.inr ⟨by omega, by omega, 0x80, 0xBF, (Option.some.inj h).symm,
      by simp [hzero, hlast]⟩)
  split at h
  · rename_i hb
    refine .inr (.inr ⟨by omega, by omega, 0x80, 0x8F, ?_, by simp [hb]⟩)
    rw [← Option.some.inj h, hb]
  · cases h

/-- A pending sequence is continued, or it is a broken piece. -/
theorem exists_continuation {p : Pending} {rest : Bytes} {cs : List Char}
    (h : scanFrom (some p) rest = cs.map some) :
    ∃ b rest', rest = b :: rest' ∧ p.low.toNat ≤ b.toNat ∧ b.toNat ≤ p.high.toNat ∧
      match p.more with
      | 0 => ∃ cs', cs = Char.ofNat (p.bits * 64 + b.toNat % 64) :: cs' ∧
          scan rest' = cs'.map some
      | more + 1 =>
          scanFrom (some ⟨p.bits * 64 + b.toNat % 64, 0x80, 0xBF, more⟩) rest' = cs.map some := by
  cases rest with
  | nil => cases cs <;> simp [scanFrom] at h
  | cons b rest =>
    by_cases hr : p.low ≤ b ∧ b ≤ p.high
    · refine ⟨b, rest, rfl, hr.1, hr.2, ?_⟩
      simp only [scanFrom, step, if_pos hr] at h
      cases hmore : p.more with
      | zero =>
        rw [hmore] at h
        cases cs with
        | nil => simp at h
        | cons c cs =>
          obtain ⟨hc, hrest⟩ := List.cons.inj h
          exact ⟨cs, by rw [Option.some.inj hc], hrest⟩
      | succ more =>
        rw [hmore] at h
        exact h
    · simp only [scanFrom, step, if_neg hr] at h
      cases cs <;> simp at h

/-! ### Characters written again

The value that the bits of a sequence give, with the bytes they came from. That it is a
character at all is why some ranges are narrower. -/

section Written

variable {b c d e : UInt8}

theorem toNat_ofNat_val {n : Nat} (h : n < 0xD800 ∨ 0xDFFF < n ∧ n < 0x110000) :
    (Char.ofNat n).val.toNat = n := by
  rw [Char.ofNat, dif_pos h]
  rfl

theorem encodeChar_one (h : b.toNat < 0x80) : String.utf8EncodeChar (Char.ofNat b.toNat) = [b] := by
  have hv := toNat_ofNat_val (n := b.toNat) (by omega)
  unfold String.utf8EncodeChar
  simp only [hv]
  rw [if_pos (by omega)]
  simp

theorem encodeChar_two (hb : 0xC2 ≤ b.toNat) (hb' : b.toNat ≤ 0xDF) (hc : 0x80 ≤ c.toNat)
    (hc' : c.toNat ≤ 0xBF) :
    String.utf8EncodeChar (Char.ofNat (b.toNat % 32 * 64 + c.toNat % 64)) = [b, c] := by
  have hv := toNat_ofNat_val (n := b.toNat % 32 * 64 + c.toNat % 64) (by omega)
  unfold String.utf8EncodeChar
  simp only [hv]
  rw [if_neg (by omega), if_pos (by omega)]
  simp only [List.cons.injEq, ← UInt8.toNat_inj, UInt8.toNat_ofNat', and_true]
  omega

theorem encodeChar_three (hb : 0xE0 ≤ b.toNat) (hb' : b.toNat ≤ 0xEF) (hc : 0x80 ≤ c.toNat)
    (hc' : c.toNat ≤ 0xBF) (hoverlong : b.toNat = 0xE0 → 0xA0 ≤ c.toNat)
    (hsurrogate : b.toNat = 0xED → c.toNat ≤ 0x9F) (hd : 0x80 ≤ d.toNat) (hd' : d.toNat ≤ 0xBF) :
    String.utf8EncodeChar
      (Char.ofNat ((b.toNat % 16 * 64 + c.toNat % 64) * 64 + d.toNat % 64)) = [b, c, d] := by
  have hv := toNat_ofNat_val (n := (b.toNat % 16 * 64 + c.toNat % 64) * 64 + d.toNat % 64)
    (by omega)
  unfold String.utf8EncodeChar
  simp only [hv]
  rw [if_neg (by omega), if_neg (by omega), if_pos (by omega)]
  simp only [List.cons.injEq, ← UInt8.toNat_inj, UInt8.toNat_ofNat', and_true]
  omega

theorem encodeChar_four (hb : 0xF0 ≤ b.toNat) (hb' : b.toNat ≤ 0xF4) (hc : 0x80 ≤ c.toNat)
    (hc' : c.toNat ≤ 0xBF) (hoverlong : b.toNat = 0xF0 → 0x90 ≤ c.toNat)
    (hlast : b.toNat = 0xF4 → c.toNat ≤ 0x8F) (hd : 0x80 ≤ d.toNat) (hd' : d.toNat ≤ 0xBF)
    (he : 0x80 ≤ e.toNat) (he' : e.toNat ≤ 0xBF) :
    String.utf8EncodeChar
      (Char.ofNat (((b.toNat % 8 * 64 + c.toNat % 64) * 64 + d.toNat % 64) * 64 + e.toNat % 64)) =
        [b, c, d, e] := by
  have hv := toNat_ofNat_val
    (n := ((b.toNat % 8 * 64 + c.toNat % 64) * 64 + d.toNat % 64) * 64 + e.toNat % 64) (by omega)
  unfold String.utf8EncodeChar
  simp only [hv]
  rw [if_neg (by omega), if_neg (by omega), if_neg (by omega)]
  simp only [List.cons.injEq, ← UInt8.toNat_inj, UInt8.toNat_ofNat', and_true]
  omega

end Written

/-- A character that was read from several bytes is written with just these. -/
theorem exists_first_of_lead? {b : UInt8} {p : Pending} {rest : Bytes} {cs : List Char}
    (hlead : lead? b = some p) (h : scanFrom (some p) rest = cs.map some) :
    ∃ c cs' rest', cs = c :: cs' ∧ b :: rest = String.utf8EncodeChar c ++ rest' ∧
      scan rest' = cs'.map some := by
  obtain ⟨c, rest, rfl, hc, hc', h⟩ := exists_continuation h
  rcases lead?_eq_some hlead with ⟨hb, hb', rfl⟩ |
    ⟨hb, hb', low, high, rfl, hlow, hhigh, hoverlong, hsurrogate⟩ |
    ⟨hb, hb', low, high, rfl, hlow, hhigh, hoverlong, hlast⟩
  · obtain ⟨cs, rfl, hrest⟩ := h
    exact ⟨_, cs, rest, rfl, by rw [encodeChar_two hb hb' hc hc']; rfl, hrest⟩
  · obtain ⟨d, rest, rfl, hd, hd', cs, rfl, hrest⟩ := exists_continuation h
    refine ⟨_, cs, rest, rfl, ?_, hrest⟩
    rw [encodeChar_three hb hb' (hlow.trans hc) (hc'.trans hhigh)
      (fun he => (hoverlong he).trans hc) (fun he => hc'.trans (hsurrogate he)) hd hd']
    rfl
  · obtain ⟨d, rest, rfl, hd, hd', h⟩ := exists_continuation h
    obtain ⟨e, rest, rfl, he, he', cs, rfl, hrest⟩ := exists_continuation h
    refine ⟨_, cs, rest, rfl, ?_, hrest⟩
    rw [encodeChar_four hb hb' (hlow.trans hc) (hc'.trans hhigh)
      (fun he => (hoverlong he).trans hc) (fun he => hc'.trans (hlast he)) hd hd' he he']
    rfl

/-- **The first character that was read is written again as it was.** -/
theorem exists_first_of_scan {b : UInt8} {rest : Bytes} {cs : List Char}
    (h : scan (b :: rest) = cs.map some) :
    ∃ c cs' rest', cs = c :: cs' ∧ b :: rest = String.utf8EncodeChar c ++ rest' ∧
      scan rest' = cs'.map some := by
  by_cases hb : b < 0x80
  · have hlt : b.toNat < 0x80 := UInt8.lt_iff_toNat_lt.1 hb
    have hone := scan_one hlt rest
    rw [UInt8.ofNat_toNat, h] at hone
    cases cs with
    | nil => cases hone
    | cons c cs =>
      obtain ⟨hc, hrest⟩ := List.cons.inj hone
      refine ⟨c, cs, rest, rfl, ?_, hrest.symm⟩
      rw [Option.some.inj hc, encodeChar_one hlt, List.singleton_append]
  · cases hlead : lead? b with
    | none =>
      simp only [scan, scanFrom, step, start, if_neg hb, hlead] at h
      cases cs <;> cases h
    | some p =>
      rw [scan_cons_of_lead? hlead] at h
      exact exists_first_of_lead? hlead h

/-! ### Texts -/

theorem eq_flatMap_encodeChar_of_scan {bytes : Bytes} {cs : List Char}
    (h : scan bytes = cs.map some) : bytes = cs.flatMap String.utf8EncodeChar := by
  induction cs generalizing bytes with
  | nil =>
    cases bytes with
    | nil => rfl
    | cons b rest =>
      obtain ⟨c, cs, rest', hcs, -⟩ := exists_first_of_scan h
      cases hcs
  | cons c cs ih =>
    cases bytes with
    | nil => cases h
    | cons b rest =>
      obtain ⟨c', cs', rest', hcs, hbytes, hrest⟩ := exists_first_of_scan h
      obtain ⟨rfl, rfl⟩ := List.cons.inj hcs
      rw [hbytes, List.flatMap_cons, ← ih hrest]

theorem eq_encode_of_scan {bytes : Bytes} {cs : List Char} (h : scan bytes = cs.map some) :
    bytes = encode (.ofList cs) := by
  rw [encode, String.toList_ofList]
  exact eq_flatMap_encodeChar_of_scan h

/-- **The byte strings that have a text are the bytes of texts.** -/
theorem decode?_eq_some {bytes : Bytes} {s : String} :
    decode? bytes = some s ↔ bytes = encode s := by
  constructor
  · intro h
    have hscan := eq_encode_of_scan (decode?_eq_some_iff_scan.1 h)
    rwa [String.ofList_toList] at hscan
  · rintro rfl
    exact decode?_eq_some_iff_scan.2 (scan_encode s)

/-! ### Cutting at a one-byte character -/

/-- The byte after a lead byte or a continuation byte is no one-byte character. -/
theorem low_of_step {pending : Option Pending} {a : UInt8} {p : Pending}
    (h : (step pending a).2 = some p) : 0x80 ≤ p.low := by
  have hstart : ∀ {p}, (start a).2 = some p → 0x80 ≤ p.low := by
    intro p h
    unfold start at h
    split at h
    · cases h
    split at h
    · cases h
    · rename_i hlead
      obtain rfl := Option.some.inj h
      rcases lead?_eq_some hlead with ⟨-, -, rfl⟩ | ⟨-, -, low, high, rfl, hlow, -⟩ |
        ⟨-, -, low, high, rfl, hlow, -⟩
      · exact UInt8.le_refl _
      · exact hlow
      · exact hlow
  cases pending with
  | none => exact hstart h
  | some q =>
    simp only [step] at h
    split at h
    · split at h
      · cases h
      · rw [← Option.some.inj h]
        exact UInt8.le_refl _
    · exact hstart h

/-- **A one-byte character cuts a byte string**: whatever is pending in front of it is a
broken piece, and it is read as at the beginning. -/
theorem scanFrom_append_cons {b : UInt8} (hb : b < 0x80) {pending : Option Pending}
    (hpending : ∀ p, pending = some p → 0x80 ≤ p.low) (front back : Bytes) :
    scanFrom pending (front ++ b :: back) = scanFrom pending front ++ scan (b :: back) := by
  induction front generalizing pending with
  | nil =>
    cases pending with
    | none => rfl
    | some p =>
      have hout : ¬(p.low ≤ b ∧ b ≤ p.high) := fun h =>
        absurd (UInt8.le_trans (hpending p rfl) h.1) (UInt8.not_le.2 hb)
      simp only [List.nil_append, scanFrom, scan, step, if_neg hout]
      rfl
  | cons a front ih =>
    have hnext := ih fun p (hp : (step pending a).2 = some p) => low_of_step hp
    simp only [List.cons_append, scanFrom, hnext, List.append_assoc]

/-- Cut at a one-byte character, the bytes of a text are the bytes of texts. -/
theorem exists_encode_of_append_cons {b : UInt8} (hb : b < 0x80) {front back : Bytes} {s : String}
    (h : front ++ b :: back = encode s) :
    (∃ t, front = encode t) ∧ ∃ t, back = encode t := by
  have hcut : scan front ++ scan (b :: back) = s.toList.map some := by
    rw [← scan_encode, ← h]
    exact (scanFrom_append_cons hb (by simp) front back).symm
  have hback : scan (b :: back) = some (Char.ofNat b.toNat) :: scan back := by
    rw [← scan_one (UInt8.lt_iff_toNat_lt.1 hb), UInt8.ofNat_toNat]
  rw [hback, List.append_eq_map_iff] at hcut
  obtain ⟨cs, ds, -, hfront, hds⟩ := hcut
  cases ds with
  | nil => cases hds
  | cons d ds =>
    obtain ⟨-, hback⟩ := List.cons.inj hds
    exact ⟨⟨_, eq_encode_of_scan hfront.symm⟩, _, eq_encode_of_scan hback.symm⟩

end Utf8

end HostAccess
