import HostAccess.Proofs.Text.Utf8.WellFormed
import HostAccess.Proofs.Text.Words
import HostAccess.Settings
import Mathlib.Tactic.FinCases

/-!
# What is made of the value of a variable

A value is written in one of three forms, and each is read back by the look-up that is made for
it:

* a text as it is: `HostAccess.Variable.text_encode`;
* a number in decimal, with zeros in front and blanks around it
  (`HostAccess.Text.Writes`): `HostAccess.Variable.number_of_writes`;
* one of a few words, in any letter case and with blanks around it (`HostAccess.Text.Spells`):
  `HostAccess.Variable.flag_of_spells` for yes and no, `HostAccess.LogLevel.parse?_of_spells` for
  the level of a log.
-/

namespace HostAccess

namespace Text

variable {words : List String} {word : List Char} {s : String}

/-! ### Words in any letter case -/

/-- **A text that spells one of some words**, in any letter case and with blanks around it. -/
def Spells (words : List String) (s : String) : Prop :=
  ∃ front word back, Blanks front ∧ Blanks back ∧ lowerAscii (String.ofList word) ∈ words ∧
    s = String.ofList (front ++ (word ++ back))

/-- No blank is a letter. -/
theorem toLower_of_isBlank {c : Char} (h : isBlank c = true) : c.toLower = c := by
  unfold Char.toLower
  split
  · next hletter =>
    have hlow : 65 ≤ c.toNat := UInt32.le_iff_toNat_le.1 hletter.1
    have hhigh : c.toNat ≤ 90 := UInt32.le_iff_toNat_le.1 hletter.2
    simp only [isBlank, Bool.or_eq_true, Bool.and_eq_true, decide_eq_true_eq, beq_iff_eq] at h
    omega
  · rfl

/-- What is a word in lower case is one in any letter case. -/
theorem isWord_of_lowerAscii (h : IsWord (lowerAscii (String.ofList word)).toList) :
    IsWord word := by
  simp only [lowerAscii, String.toList_ofList] at h
  refine ⟨fun hnil => h.1 (by rw [hnil, List.map_nil]), fun c hc => ?_⟩
  have hlower : isBlank c.toLower = false := h.2 _ (List.mem_map_of_mem hc)
  cases hblank : isBlank c with
  | false => rfl
  | true => rw [toLower_of_isBlank hblank, hblank] at hlower; cases hlower

theorem Spells.lowerAscii_trim (h : Spells words s) (hwords : ∀ w ∈ words, IsWord w.toList) :
    lowerAscii (trim s) ∈ words := by
  obtain ⟨front, word, back, hfront, hback, hword, rfl⟩ := h
  rwa [trim_padded hfront (isWord_of_lowerAscii (hwords _ hword)) hback]

theorem Spells.ne_empty (h : Spells words s) (hwords : ∀ w ∈ words, IsWord w.toList) :
    s ≠ "" := by
  rintro rfl
  exact (hwords _ (h.lowerAscii_trim hwords)).1 rfl

/-! ### Numbers -/

/-- **A text that writes a number**: in decimal, with zeros in front and blanks around it. -/
def Writes (n : Nat) (s : String) : Prop :=
  ∃ front zeros back, Blanks front ∧ Blanks back ∧
    s = String.ofList (front ++ ((List.replicate zeros '0' ++ (toString n).toList) ++ back))

theorem isWord_zeros (zeros n : Nat) :
    IsWord (List.replicate zeros '0' ++ (toString n).toList) := by
  have hword : IsWord (toString n).toList := isWord_toString n
  refine ⟨List.append_ne_nil_of_right_ne_nil _ hword.1, fun c hc => ?_⟩
  rcases List.mem_append.1 hc with hzero | hdigit
  · rw [List.eq_of_mem_replicate hzero]
    decide
  · exact hword.2 c hdigit

end Text

namespace Decimal

/-- A written number is read exactly if it fits the width. -/
theorem unsigned?_trim_of_writes {n : Nat} {s : String} (h : Text.Writes n s) (bits : Nat) :
    unsigned? bits (Text.trim s) = if n < 2 ^ bits then some n else none := by
  obtain ⟨front, zeros, back, hfront, hback, rfl⟩ := h
  rw [Text.trim_padded hfront (Text.isWord_zeros zeros n) hback, unsigned?_zeros]

end Decimal

/-! ### The words of a log level -/

/-- The words for a level: its name, for one level a longer one, and its number. -/
def LogLevel.words : LogLevel → List String
  | off => ["off", "0"]
  | error => ["error", "1"]
  | warn => ["warn", "warning", "2"]
  | info => ["info", "3"]
  | debug => ["debug", "4"]
  | trace => ["trace", "5"]

theorem LogLevel.isWord_of_mem_words {level : LogLevel} :
    ∀ w ∈ level.words, Text.IsWord w.toList := by
  cases level <;> decide

/-- **The words for a level are the texts that are read as it**, once trimmed and in lower case. -/
theorem LogLevel.parse?_eq_some_iff {level : LogLevel} {s : String} :
    parse? s = some level ↔ Text.lowerAscii (Text.trim s) ∈ level.words := by
  unfold parse?
  generalize Text.lowerAscii (Text.trim s) = word
  constructor
  · intro h
    split at h <;> cases h <;> decide
  · intro h
    cases level <;> fin_cases h <;> rfl

theorem LogLevel.parse?_of_spells {level : LogLevel} {s : String}
    (h : Text.Spells level.words s) : parse? s = some level :=
  parse?_eq_some_iff.2 (h.lowerAscii_trim isWord_of_mem_words)

namespace Variable

/-! ### Look-ups -/

/-- The words for yes and no. -/
def flagWords : Bool → List String
  | true => ["1", "true", "yes", "on"]
  | false => ["0", "false", "no", "off"]

theorem isWord_of_mem_flagWords {answer : Bool} :
    ∀ w ∈ flagWords answer, Text.IsWord w.toList := by
  cases answer <;> decide

/-- **The words for an answer are the texts that are read as it**, once trimmed and in lower
case. -/
theorem flagWord?_eq_some_iff {answer : Bool} {s : String} :
    flagWord? s = some answer ↔ Text.lowerAscii (Text.trim s) ∈ flagWords answer := by
  unfold flagWord?
  generalize Text.lowerAscii (Text.trim s) = word
  constructor
  · intro h
    split at h <;> cases h <;> decide
  · intro h
    cases answer <;> fin_cases h <;> rfl

/-- A text is the text of its bytes. -/
theorem text?_encode (s : String) : text? (some (Utf8.encode s)) = some s :=
  Utf8.decode?_eq_some.2 rfl

theorem parsed?_encode {α : Type} (parse : String → Option α) (s : String) :
    parsed? parse (some (Utf8.encode s)) = parse (Text.trim s) := by
  rw [parsed?, text?_encode, Option.bind_some]

/-- **A text is read back as it is**, unless it is empty. -/
theorem text_encode {s : String} (h : s ≠ "") (fallback : String) :
    text fallback (some (Utf8.encode s)) = s := by
  rw [text, text?_encode]
  exact if_neg (by simpa using h)

/-- **A number is read back if it fits the width.** -/
theorem number_of_writes {bits n : Nat} {s : String} (hn : n < 2 ^ bits) (h : Text.Writes n s) :
    parsed? (Decimal.unsigned? bits) (some (Utf8.encode s)) = some n := by
  rw [parsed?_encode, Decimal.unsigned?_trim_of_writes h, if_pos hn]

/-- **Yes and no are read back.** -/
theorem flag_of_spells {answer : Bool} {s : String} (h : Text.Spells (flagWords answer) s)
    (fallback : Bool) : flag fallback (some (Utf8.encode s)) = answer := by
  rw [flag, text?_encode, Option.bind_some,
    flagWord?_eq_some_iff.2 (h.lowerAscii_trim isWord_of_mem_flagWords), Option.getD_some]

end Variable

end HostAccess
