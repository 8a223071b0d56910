import HostAccess.Proofs.Text.Decimal
import HostAccess.Text.Blank

/-!
# Words between blanks

A text is a row of words with blanks between them. Where a text is put together from words
and runs of blanks, its words are those that were put into it, if none of them is empty and
there is a blank behind each that something follows.

* `HostAccess.Text.wordsOf_blanks_append`: blanks in front do not matter;
* `HostAccess.Text.wordsOf_word_append`: a word in front is the first one;
* `HostAccess.Text.trim_padded`: trimming leaves the word between blanks;
* `HostAccess.Text.isWord_toString`: a written number is a word.
-/

namespace HostAccess

namespace Text

/-- A run of blanks, which may be empty. -/
def Blanks (cs : List Char) : Prop :=
  ∀ c ∈ cs, isBlank c = true

/-- **A word**: at least one character, and no blank among them. -/
def IsWord (cs : List Char) : Prop :=
  cs ≠ [] ∧ ∀ c ∈ cs, isBlank c = false

/-- What may stand behind a word: nothing, or a blank and anything. -/
def EndsWord (rest : List Char) : Prop :=
  ∀ c ∈ rest.head?, isBlank c = true

-- Over the characters of the list: there are too many characters to go through all of them.
instance (cs : List Char) : Decidable (Blanks cs) :=
  List.decidableBAll (isBlank · = true) cs

instance (cs : List Char) : Decidable (IsWord cs) :=
  have : Decidable (∀ c ∈ cs, isBlank c = false) := List.decidableBAll (isBlank · = false) cs
  inferInstanceAs (Decidable (cs ≠ [] ∧ ∀ c ∈ cs, isBlank c = false))

instance (rest : List Char) : Decidable (EndsWord rest) :=
  Option.decidableForallMem rest.head?

variable {gap back word cs rest : List Char} {c : Char}

theorem isBlank_eq_false_of_isDigit (h : c.isDigit = true) : isBlank c = false := by
  simp only [Char.isDigit, Bool.and_eq_true, decide_eq_true_eq, ge_iff_le,
    UInt32.le_iff_toNat_le] at h
  change 48 ≤ c.toNat ∧ c.toNat ≤ 57 at h
  simp only [isBlank, Bool.or_eq_false_iff, Bool.and_eq_false_iff, decide_eq_false_iff_not,
    beq_eq_false_iff_ne]
  omega

/-- A character that is no blank stands in no run of blanks. -/
theorem Blanks.not_mem (h : Blanks gap) (hc : isBlank c = false) : c ∉ gap := by
  intro hmem
  rw [h c hmem] at hc
  cases hc

/-- **A written number is a word.** -/
theorem isWord_toString (n : Int) : IsWord (toString n).toList := by
  refine ⟨Decimal.toList_toString_ne_nil n, fun c hc => ?_⟩
  rcases Decimal.eq_minus_or_isDigit hc with rfl | hdigit
  · decide
  · exact isBlank_eq_false_of_isDigit hdigit

/-! ### Ends of words -/

theorem Blanks.endsWord (h : Blanks gap) : EndsWord gap :=
  fun c hc => h c (List.mem_of_mem_head? hc)

/-- Blanks end a word, whatever stands behind them. -/
theorem Blanks.endsWord_append (h : Blanks gap) (hne : gap ≠ []) : EndsWord (gap ++ cs) := by
  obtain ⟨b, gap, rfl⟩ := List.exists_cons_of_ne_nil hne
  exact h.endsWord

/-! ### The words of a text -/

theorem wordsOf_cons_of_isBlank (h : isBlank c = true) : wordsOf (c :: cs) = wordsOf cs := by
  rw [wordsOf, List.splitOnP_cons_eq_if_modifyHead, if_pos h]
  rfl

/-- **Blanks in front do not matter.** -/
theorem wordsOf_blanks_append (h : Blanks gap) : wordsOf (gap ++ cs) = wordsOf cs := by
  induction gap with
  | nil => rfl
  | cons c gap ih =>
    obtain ⟨hc, hgap⟩ := List.forall_mem_cons.1 h
    rw [List.cons_append, wordsOf_cons_of_isBlank hc, ih hgap]

theorem wordsOf_of_blanks (h : Blanks gap) : wordsOf gap = [] := by
  rw [← List.append_nil gap, wordsOf_blanks_append h]
  rfl

/-- **A word in front is the first one.** -/
theorem wordsOf_word_append (h : IsWord word) (hend : EndsWord rest) :
    wordsOf (word ++ rest) = word :: wordsOf rest := by
  have hfilled : (!word.isEmpty) = true := by simpa using h.1
  cases rest with
  | nil =>
    rw [List.append_nil, wordsOf, List.splitOnP_eq_singleton h.2,
      List.filter_cons_of_pos (by exact hfilled)]
    rfl
  | cons c rest =>
    have hc : isBlank c = true := hend c rfl
    rw [wordsOf_cons_of_isBlank hc, wordsOf, List.splitOnP_append_cons_of_forall_mem h.2 c hc,
      List.filter_cons_of_pos (by exact hfilled), wordsOf]

/-! ### Trimming -/

theorem dropWhile_blanks_append (h : Blanks gap) :
    (gap ++ cs).dropWhile isBlank = cs.dropWhile isBlank :=
  List.dropWhile_append_of_pos h

theorem dropWhile_word_append (h : IsWord word) :
    (word ++ cs).dropWhile isBlank = word ++ cs := by
  obtain ⟨c, word, rfl⟩ := List.exists_cons_of_ne_nil h.1
  rw [List.cons_append, List.dropWhile_cons_of_neg (by simp [h.2 c List.mem_cons_self])]

/-- **Trimming leaves the word between blanks.** -/
theorem trim_padded (hgap : Blanks gap) (h : IsWord word) (hback : Blanks back) :
    trim (String.ofList (gap ++ (word ++ back))) = String.ofList word := by
  have hreverse : IsWord word.reverse := ⟨by simpa using h.1, by simpa using h.2⟩
  have hbackwards : Blanks back.reverse := fun c hc => hback c (List.mem_reverse.1 hc)
  rw [trim, String.toList_ofList, trimChars, dropWhile_blanks_append hgap,
    dropWhile_word_append h, List.reverse_append, dropWhile_blanks_append hbackwards,
    ← List.append_nil word.reverse, dropWhile_word_append hreverse, List.append_nil,
    List.reverse_reverse]

end Text

end HostAccess
