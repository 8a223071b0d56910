/-!
# Blank characters

The characters that separate words: those with the Unicode property `White_Space`, 25 in
all. Values are trimmed of them and lines are split at them. A table pads the texts of a
column with one of them, the space, to one width, counted in characters; a text that is
already as wide is left as it is.

* `HostAccess.Text.isBlank`: the class;
* `HostAccess.Text.trim`: a text without the blanks at its ends;
* `HostAccess.Text.words`: the runs between blanks;
* `HostAccess.Text.alignLeft`, `HostAccess.Text.alignRight`: the padded text.
-/

namespace HostAccess

namespace Text

/-- The characters with the property `White_Space`. -/
def isBlank (c : Char) : Bool :=
  let n := c.toNat
  (9 ≤ n && n ≤ 13) || n == 0x20 || n == 0x85 || n == 0xA0 || n == 0x1680 ||
    (0x2000 ≤ n && n ≤ 0x200A) || n == 0x2028 || n == 0x2029 || n == 0x202F ||
    n == 0x205F || n == 0x3000

theorem isBlank_of_isWhitespace {c : Char} (h : c.isWhitespace) : isBlank c := by
  simp only [Char.isWhitespace, Bool.or_eq_true, decide_eq_true_eq] at h
  rcases h with ((rfl | rfl) | rfl) | rfl <;> decide

/-- The characters without the blanks at either end. -/
def trimChars (cs : List Char) : List Char :=
  ((cs.dropWhile isBlank).reverse.dropWhile isBlank).reverse

/-- A text without the blanks at either end. -/
def trim (s : String) : String :=
  String.ofList (trimChars s.toList)

/-- The maximal runs of characters that are not blank. -/
def wordsOf (cs : List Char) : List (List Char) :=
  (cs.splitOnP isBlank).filter (!·.isEmpty)

/-- The words of a text. -/
def words (s : String) : List String :=
  (wordsOf s.toList).map String.ofList

/-- The text with its ASCII letters in lower case.

Lowered texts are only ever compared with fixed ASCII words that have no `k`. The Kelvin
sign is the one other character whose lower case is an ASCII letter, so lowering every
script would answer the same comparisons alike. -/
def lowerAscii (s : String) : String :=
  String.ofList (s.toList.map Char.toLower)

/-! ### Aligned columns -/

/-- The spaces that a text lacks to a width. -/
def padding (width : Nat) (s : String) : String :=
  String.ofList (List.replicate (width - s.length) ' ')

/-- A text with spaces after it. -/
def alignLeft (width : Nat) (s : String) : String :=
  s ++ padding width s

/-- A text with spaces before it. -/
def alignRight (width : Nat) (s : String) : String :=
  padding width s ++ s

end Text

end HostAccess
