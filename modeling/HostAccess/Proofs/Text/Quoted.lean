import HostAccess.Text.Quoted
import Mathlib.Data.Nat.Init

/-!
# Quoted texts are told apart

A message quotes what it is about, and it names this only if no other text looks the same between
quotes. Every character stands there in one of three ways: by itself, as a letter after a
backslash, or by its code point between braces. Where it ends is told by what it begins with, so
the characters can be taken off a quoted text one by one.

* `HostAccess.Text.toDigits_inj`: code points in hexadecimal;
* `HostAccess.Text.escapeChar_append_inj`: one character, whatever follows it;
* `HostAccess.Text.quote_inj`: the main result.
-/

namespace HostAccess

namespace Text

/-! ### Code points in hexadecimal -/

theorem digitChar_inj : ∀ m < 16, ∀ n < 16, Nat.digitChar m = Nat.digitChar n → m = n := by
  decide

theorem digitChar_ne_brace : ∀ n < 16, Nat.digitChar n ≠ '\x7d' := by
  decide

theorem brace_notMem_toDigits (n : Nat) : '\x7d' ∉ Nat.toDigits 16 n := by
  induction n using Nat.strongRecOn with
  | ind n ih =>
    rw [Nat.toDigits_eq_if (by decide)]
    split
    case isTrue hlt =>
      rw [List.mem_singleton]
      exact (digitChar_ne_brace n hlt).symm
    case isFalse hge =>
      rw [List.mem_append, List.mem_singleton, not_or]
      exact ⟨ih (n / 16) (by omega), (digitChar_ne_brace _ (Nat.mod_lt n (by decide))).symm⟩

/-- The last digit is the remainder, and the digits in front of it are those of the quotient. -/
theorem toDigits_inj {m n : Nat} (h : Nat.toDigits 16 m = Nat.toDigits 16 n) : m = n := by
  induction m using Nat.strongRecOn generalizing n with
  | ind m ih =>
    have hnil (k : Nat) : Nat.toDigits 16 k ≠ [] := Nat.toDigits_ne_nil
    rw [Nat.toDigits_eq_if (by decide) (n := m), Nat.toDigits_eq_if (by decide) (n := n)] at h
    split at h <;> split at h
    case isTrue.isTrue hm hn => exact digitChar_inj m hm n hn (List.singleton_inj.1 h)
    case isTrue.isFalse => exact absurd (List.append_singleton_inj.1 h.symm).1 (hnil _)
    case isFalse.isTrue => exact absurd (List.append_singleton_inj.1 h).1 (hnil _)
    case isFalse.isFalse =>
      obtain ⟨hfront, hlast⟩ := List.append_singleton_inj.1 h
      have hdiv : m / 16 = n / 16 := ih (m / 16) (by omega) hfront
      have hmod : m % 16 = n % 16 :=
        digitChar_inj _ (Nat.mod_lt m (by decide)) _ (Nat.mod_lt n (by decide)) hlast
      omega

/-! ### Escapes -/

/-- What stands in front of the first closing brace, and what behind it. -/
theorem append_brace_inj {front front' back back' : List Char} (h : '\x7d' ∉ front)
    (h' : '\x7d' ∉ front') (heq : front ++ '\x7d' :: back = front' ++ '\x7d' :: back') :
    front = front' ∧ back = back' := by
  induction front generalizing front' with
  | nil =>
    cases front' with
    | nil => exact ⟨rfl, (List.cons.inj heq).2⟩
    | cons c front' => exact absurd ((List.cons.inj heq).1 ▸ List.mem_cons_self) h'
  | cons c front ih =>
    cases front' with
    | nil => exact absurd ((List.cons.inj heq).1 ▸ List.mem_cons_self) h
    | cons c' front' =>
      obtain ⟨rfl, hrest⟩ := List.cons.inj heq
      obtain ⟨rfl, rfl⟩ := ih (mt (List.mem_cons_of_mem c) h) (mt (List.mem_cons_of_mem c) h') hrest
      exact ⟨rfl, rfl⟩

/-- The characters for which there is a letter, each with its letter. -/
def lettered : List (Char × Char) :=
  [('\x00', '0'), ('\t', 't'), ('\r', 'r'), ('\n', 'n'), ('"', '"'), ('\\', '\\')]

theorem mem_lettered {c letter : Char} (h : escapeLetter? c = some letter) :
    (c, letter) ∈ lettered := by
  grind [escapeLetter?, lettered]

theorem lettered_inj : ∀ p ∈ lettered, ∀ q ∈ lettered, p.2 = q.2 → p.1 = q.1 := by
  decide

theorem lettered_ne_u : ∀ p ∈ lettered, p.2 ≠ 'u' := by
  decide

theorem escapeLetter?_inj {c d letter : Char} (hc : escapeLetter? c = some letter)
    (hd : escapeLetter? d = some letter) : c = d :=
  lettered_inj _ (mem_lettered hc) _ (mem_lettered hd) rfl

theorem escapeLetter?_ne_u {c letter : Char} (h : escapeLetter? c = some letter) :
    letter ≠ 'u' :=
  lettered_ne_u _ (mem_lettered h)

theorem ne_backslash_of_escapeLetter? {c : Char} (h : escapeLetter? c = none) : c ≠ '\\' := by
  rintro rfl
  cases h

/-- **How a character stands inside quotes.** -/
theorem escapeChar_cases (c : Char) :
    (∃ letter, escapeLetter? c = some letter ∧ escapeChar c = ['\\', letter]) ∨
      escapeChar c = '\\' :: 'u' :: '\x7b' :: (Nat.toDigits 16 c.toNat ++ ['\x7d']) ∨
      c ≠ '\\' ∧ escapeChar c = [c] := by
  rw [escapeChar]
  cases hletter : escapeLetter? c with
  | some letter => exact Or.inl ⟨letter, rfl, rfl⟩
  | none =>
    dsimp only
    by_cases hprint : isUnprintable c = true
    · rw [if_pos hprint]
      exact Or.inr (Or.inl rfl)
    · rw [if_neg hprint]
      exact Or.inr (Or.inr ⟨ne_backslash_of_escapeLetter? hletter, rfl⟩)

/-- **One character** is told by how it stands inside quotes, and so is where it ends. -/
theorem escapeChar_append_inj {c d : Char} {s t : List Char}
    (h : escapeChar c ++ s = escapeChar d ++ t) : c = d ∧ s = t := by
  -- Characters that stand there in different ways differ at the first or the second place.
  obtain ⟨letter, hc, heq⟩ | heq | ⟨hc, heq⟩ := escapeChar_cases c <;>
    obtain ⟨letter', hd, heq'⟩ | heq' | ⟨hd, heq'⟩ := escapeChar_cases d <;>
    simp only [heq, heq', List.cons_append, List.nil_append, List.append_assoc, List.cons.injEq,
      true_and] at h
  · obtain ⟨rfl, hrest⟩ := h
    exact ⟨escapeLetter?_inj hc hd, hrest⟩
  · exact absurd h.1 (escapeLetter?_ne_u hc)
  · exact absurd h.1.symm hd
  · exact absurd h.1.symm (escapeLetter?_ne_u hd)
  · obtain ⟨hdigits, hrest⟩ :=
      append_brace_inj (brace_notMem_toDigits c.toNat) (brace_notMem_toDigits d.toNat) h
    exact ⟨Char.toNat_inj.1 (toDigits_inj hdigits), hrest⟩
  · exact absurd h.1.symm hd
  · exact absurd h.1 hc
  · exact absurd h.1 hc
  · exact h

theorem escapeChar_ne_nil (c : Char) : escapeChar c ≠ [] := by
  obtain ⟨letter, -, heq⟩ | heq | ⟨-, heq⟩ := escapeChar_cases c <;> simp [heq]

theorem flatMap_escapeChar_inj {s t : List Char} (h : s.flatMap escapeChar = t.flatMap escapeChar) :
    s = t := by
  induction s generalizing t with
  | nil =>
    cases t with
    | nil => rfl
    | cons d t => exact absurd (List.append_eq_nil_iff.1 h.symm).1 (escapeChar_ne_nil d)
  | cons c s ih =>
    cases t with
    | nil => exact absurd (List.append_eq_nil_iff.1 h).1 (escapeChar_ne_nil c)
    | cons d t =>
      obtain ⟨rfl, hrest⟩ := escapeChar_append_inj h
      rw [ih hrest]

/-- **A quoted text tells the text.** -/
theorem quote_inj {s t : String} : quote s = quote t ↔ s = t := by
  refine ⟨fun h => ?_, congrArg quote⟩
  have hlist := (List.cons.inj (String.ofList_inj.1 h)).2
  exact String.toList_inj.1 (flatMap_escapeChar_inj ((List.append_left_inj _).1 hlist))

end Text

end HostAccess
