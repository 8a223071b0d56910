import HostAccess.Text.Decimal
import Mathlib.Tactic.IntervalCases

/-!
# Reading a decimal number undoes writing it

Core writes a number by its last digit and, in front of that, the rest of the number
divided by ten. A reader goes through the digits the other way, from the first to the last,
and what it has read after the front is exactly that quotient
(`HostAccess.Decimal.digitsFrom?_toDigits`).

* `HostAccess.Decimal.unsigned?_zeros`: a natural number is read back exactly if it fits, with any
  zeros in front of it;
* `HostAccess.Decimal.signed?_toString`: every number within the width is read back;
* `HostAccess.Decimal.int32?_toString`: so every machine integer is.
-/

namespace HostAccess

namespace Decimal

/-! ### Digits -/

theorem digit?_digitChar {d : Nat} (h : d < 10) : digit? (Nat.digitChar d) = some d := by
  interval_cases d <;> rfl

/-- A run of digits can be read in two parts. -/
theorem digitsFrom?_append (read : Nat) (front back : List Char) :
    digitsFrom? read (front ++ back) =
      (digitsFrom? read front).bind fun n => digitsFrom? n back := by
  induction front generalizing read with
  | nil => rfl
  | cons c front ih =>
    rw [List.cons_append, digitsFrom?, digitsFrom?]
    cases digit? c with
    | none => rfl
    | some d => exact ih (10 * read + d)

theorem digitsFrom?_singleton {read d : Nat} (h : d < 10) :
    digitsFrom? read [Nat.digitChar d] = some (10 * read + d) := by
  rw [digitsFrom?, digit?_digitChar h]
  rfl

/-- **The digits of a number are read back.** -/
theorem digitsFrom?_toDigits (n : Nat) : digitsFrom? 0 (Nat.toDigits 10 n) = some n := by
  induction n using Nat.strong_induction_on with
  | _ n ih =>
    rcases Nat.lt_or_ge n 10 with h | h
    · rw [Nat.toDigits_of_lt_base h, digitsFrom?_singleton h, Nat.mul_zero, Nat.zero_add]
    · -- The digits in front are those of the quotient.
      have hquotient : digitsFrom? 0 (Nat.toDigits 10 (n / 10)) = some (n / 10) :=
        ih (n / 10) (by omega)
      have hvalue : 10 * (n / 10) + n % 10 = n := Nat.div_add_mod n 10
      rw [Nat.toDigits_of_base_le (by decide) h, digitsFrom?_append, hquotient, Option.bind_some,
        digitsFrom?_singleton (Nat.mod_lt n (by decide)), hvalue]

theorem digits?_toDigits (n : Nat) : digits? (Nat.toDigits 10 n) = some n := by
  obtain ⟨c, cs, h⟩ := List.exists_cons_of_ne_nil (Nat.toDigits_ne_nil (b := 10) (n := n))
  have hread := digitsFrom?_toDigits n
  rw [h] at hread ⊢
  exact hread

theorem isDigit_of_mem_toDigits {n : Nat} {c : Char} (h : c ∈ Nat.toDigits 10 n) :
    c.isDigit = true :=
  Nat.isDigit_of_mem_toDigits (by decide) (by decide) h

/-- A number that is not negative begins with a digit, so neither sign is seen. -/
theorem exists_cons_toDigits (n : Nat) :
    ∃ c cs, Nat.toDigits 10 n = c :: cs ∧ c ≠ '-' ∧ c ≠ '+' := by
  obtain ⟨c, cs, h⟩ := List.exists_cons_of_ne_nil (Nat.toDigits_ne_nil (b := 10) (n := n))
  have hdigit : c.isDigit = true := isDigit_of_mem_toDigits (h ▸ List.mem_cons_self ..)
  refine ⟨c, cs, h, ?_, ?_⟩
  · rintro rfl
    exact absurd hdigit (by decide)
  · rintro rfl
    exact absurd hdigit (by decide)

/-! ### Natural numbers -/

theorem digitsFrom?_zeros (zeros : Nat) (cs : List Char) :
    digitsFrom? 0 (List.replicate zeros '0' ++ cs) = digitsFrom? 0 cs := by
  induction zeros with
  | zero => rfl
  | succ zeros ih => exact ih

/-- **A natural number is read back exactly if it fits the width**, whatever zeros stand in front
of it. -/
theorem unsigned?_zeros (bits zeros n : Nat) :
    unsigned? bits (String.ofList (List.replicate zeros '0' ++ (toString n).toList)) =
      if n < 2 ^ bits then some n else none := by
  have htext : (toString n).toList = Nat.toDigits 10 n := Nat.toList_repr
  obtain ⟨c, cs, h, hplus⟩ : ∃ c cs,
      List.replicate zeros '0' ++ (toString n).toList = c :: cs ∧ c ≠ '+' := by
    cases zeros with
    | zero =>
      obtain ⟨c, cs, h, -, hplus⟩ := exists_cons_toDigits n
      exact ⟨c, cs, htext.trans h, hplus⟩
    | succ zeros => exact ⟨'0', _, rfl, by decide⟩
  have hvalue : digits? (c :: cs) = some n := by
    rw [← digitsFrom?_toDigits n, ← digitsFrom?_zeros zeros, ← htext, h]
    rfl
  unfold unsigned?
  rw [String.toList_ofList, h]
  split
  · exact absurd (List.cons.inj ‹_›).1 hplus
  · rw [hvalue, Option.filter_some, Nat.pow_eq]
    split
    · next hfits => rw [if_pos (of_decide_eq_true hfits)]
    · next hlarge => rw [if_neg fun hfits => hlarge (decide_eq_true hfits)]

/-- Core writes no zeros in front. -/
theorem unsigned?_toString (bits n : Nat) :
    unsigned? bits (toString n) = if n < 2 ^ bits then some n else none := by
  rw [← unsigned?_zeros bits 0 n, List.replicate_zero, List.nil_append, String.ofList_toList]

/-! ### Signed numbers -/

theorem toList_toString_ofNat (m : Nat) :
    (toString (Int.ofNat m)).toList = Nat.toDigits 10 m := by
  rw [Int.toString_eq_repr]
  exact Nat.toList_repr

theorem toList_toString_negSucc (m : Nat) :
    (toString (Int.negSucc m)).toList = '-' :: Nat.toDigits 10 (m + 1) := by
  rw [Int.toString_eq_repr, ← Nat.toList_repr]
  exact String.toList_append

/-- A written number is a minus or none, and digits. -/
theorem eq_minus_or_isDigit {n : Int} {c : Char} (h : c ∈ (toString n).toList) :
    c = '-' ∨ c.isDigit = true := by
  cases n with
  | ofNat m =>
    rw [toList_toString_ofNat] at h
    exact .inr (isDigit_of_mem_toDigits h)
  | negSucc m =>
    rw [toList_toString_negSucc] at h
    rcases List.mem_cons.1 h with rfl | h
    · exact .inl rfl
    · exact .inr (isDigit_of_mem_toDigits h)

theorem toList_toString_ne_nil (n : Int) : (toString n).toList ≠ [] := by
  cases n with
  | ofNat m =>
    rw [toList_toString_ofNat]
    exact Nat.toDigits_ne_nil
  | negSucc m =>
    rw [toList_toString_negSucc]
    exact List.cons_ne_nil _ _

/-- **A number within the width is read back.** -/
theorem signed?_toString {bits : Nat} {n : Int} (hlow : -(Nat.pow 2 (bits - 1) : Nat) ≤ n)
    (hhigh : n < (Nat.pow 2 (bits - 1) : Nat)) : signed? bits (toString n) = some n := by
  have hwithin : (decide (-((Nat.pow 2 (bits - 1) : Nat) : Int) ≤ n) &&
      decide (n < ((Nat.pow 2 (bits - 1) : Nat) : Int))) = true := by
    rw [decide_eq_true hlow, decide_eq_true hhigh]
    rfl
  unfold signed?
  cases n with
  | ofNat m =>
    obtain ⟨c, cs, h, hminus, hplus⟩ := exists_cons_toDigits m
    have htext : (toString (Int.ofNat m)).toList = c :: cs := (toList_toString_ofNat m).trans h
    have hvalue : digits? (c :: cs) = some m := h ▸ digits?_toDigits m
    rw [htext]
    split
    · exact absurd (List.cons.inj ‹_›).1 hminus
    · exact absurd (List.cons.inj ‹_›).1 hplus
    · rw [hvalue, Option.map_some, Option.filter_some, if_pos hwithin]
  | negSucc m =>
    rw [toList_toString_negSucc]
    split
    · rename_i cs heq
      obtain rfl := (List.cons.inj heq).2
      rw [digits?_toDigits]
      show Option.filter _ (some (Int.negSucc m)) = some (Int.negSucc m)
      rw [Option.filter_some, if_pos hwithin]
    · exact absurd (List.cons.inj ‹_›).1 (by decide)
    · rename_i hminus _
      exact absurd rfl (hminus _)

/-- **Every machine integer is read back.** -/
theorem int32?_toString (x : Int32) : int32? (toString x.toInt) = some x := by
  have hread : signed? 32 (toString x.toInt) = some x.toInt :=
    signed?_toString x.le_toInt x.toInt_lt
  rw [int32?, hread, Option.map_some, Int32.ofInt_toInt]

end Decimal

end HostAccess
