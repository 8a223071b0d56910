import HostAccess.Memory
import HostAccess.Proofs.Text.Decimal
import HostAccess.Proofs.Text.Words
import Mathlib.Data.List.Perm.Basic
import Mathlib.Data.List.TakeWhile
import Mathlib.Tactic.MkIffOfInductiveProp

/-!
# The memory that lines tell of

The lines of a memory report come in any order, and most of them matter to nobody. A line that
matters gives one of five figures (`HostAccess.FigureLine`): its name, a colon, and a number of
units of 1024 bytes. Any other line (`HostAccess.OtherLine`) has no colon or another name.

What a report tells is what its lines give, one by one (`HostAccess.MemoryLine.Tells`). A figure
that does not fit 64 bits is as good as one that no line gives, so nothing wraps around.

| step | what it does | theorem |
|---|---|---|
| a line of a figure | sets the figure it names | `HostAccess.FigureLine.readLine_text` |
| any other line | nothing | `HostAccess.OtherLine.readLine_text` |
| all lines | leave the figures they tell | `HostAccess.MemoryLine.get_figures_textOf` |

If no two lines give the same figure, then the order in which they set it does not show:
`HostAccess.SystemMemory.ofText_textOf`.
-/

namespace HostAccess

/-! ### The figures -/

/-- The figures that matter. -/
inductive MemoryKey where
  | total
  | available
  | free
  | totalSwap
  | freeSwap
  deriving DecidableEq, Repr

/-- The name in front of the colon. -/
def MemoryKey.name : MemoryKey → String
  | total => "MemTotal"
  | available => "MemAvailable"
  | free => "MemFree"
  | totalSwap => "SwapTotal"
  | freeSwap => "SwapFree"

/-- Five keys can be gone through. -/
instance {p : MemoryKey → Prop} [DecidablePred p] : Decidable (∀ key, p key) :=
  decidable_of_iff (p .total ∧ p .available ∧ p .free ∧ p .totalSwap ∧ p .freeSwap)
    ⟨fun ⟨htotal, havailable, hfree, htotalSwap, hfreeSwap⟩ key =>
      match key with
      | .total => htotal
      | .available => havailable
      | .free => hfree
      | .totalSwap => htotalSwap
      | .freeSwap => hfreeSwap,
    fun h => ⟨h _, h _, h _, h _, h _⟩⟩

namespace MemoryFigures

/-- A figure by its key. -/
def get (f : MemoryFigures) : MemoryKey → Option Nat
  | .total => f.total
  | .available => f.available
  | .free => f.free
  | .totalSwap => f.totalSwap
  | .freeSwap => f.freeSwap

/-- The figures with another one in place of that of a key. -/
def set (f : MemoryFigures) (key : MemoryKey) (bytes : Option Nat) : MemoryFigures :=
  match key with
  | .total => { f with total := bytes }
  | .available => { f with available := bytes }
  | .free => { f with free := bytes }
  | .totalSwap => { f with totalSwap := bytes }
  | .freeSwap => { f with freeSwap := bytes }

theorem get_set (f : MemoryFigures) (key other : MemoryKey) (bytes : Option Nat) :
    (f.set key bytes).get other = if other = key then bytes else f.get other := by
  cases key <;> cases other <;> rfl

theorem get_empty (key : MemoryKey) : ({} : MemoryFigures).get key = none := by
  cases key <;> rfl

theorem ext_get {f g : MemoryFigures} (h : ∀ key, f.get key = g.get key) : f = g := by
  obtain ⟨total, available, free, totalSwap, freeSwap⟩ := f
  obtain rfl : total = g.total := h .total
  obtain rfl : available = g.available := h .available
  obtain rfl : free = g.free := h .free
  obtain rfl : totalSwap = g.totalSwap := h .totalSwap
  obtain rfl : freeSwap = g.freeSwap := h .freeSwap
  rfl

/-! ### Reading a line -/

variable (f : MemoryFigures)

theorem readLine_of_named {key : MemoryKey} {name value : List Char} (hname : ':' ∉ name)
    (htrim : Text.trim (String.ofList name) = key.name) :
    f.readLine (name ++ ':' :: value) = f.set key (memoryFigure? value) := by
  have htake : (name ++ ':' :: value).takeWhile (· != ':') = name := by
    rw [List.takeWhile_append_of_pos, List.takeWhile_cons_of_neg (by simp), List.append_nil]
    intro c hc
    exact bne_iff_ne.2 fun heq => hname (heq ▸ hc)
  have hdrop : (name ++ ':' :: value).drop name.length = ':' :: value := List.drop_left' rfl
  unfold readLine
  simp only [htake, hdrop, htrim]
  cases key <;> rfl

theorem readLine_of_no_colon {line : List Char} (h : ':' ∉ line) : f.readLine line = f := by
  have htake : line.takeWhile (· != ':') = line :=
    List.takeWhile_eq_self_iff.2 fun c hc => bne_iff_ne.2 fun heq => h (heq ▸ hc)
  unfold readLine
  simp only [htake, List.drop_length]

theorem readLine_of_other_name {line : List Char}
    (h : ∀ key : MemoryKey, Text.trim (String.ofList (line.takeWhile (· != ':'))) ≠ key.name) :
    f.readLine line = f := by
  unfold readLine
  dsimp only
  split
  · rfl
  · split
    · next htotal => exact absurd htotal (h .total)
    · next havailable => exact absurd havailable (h .available)
    · next hfree => exact absurd hfree (h .free)
    · next hswap => exact absurd hswap (h .totalSwap)
    · next hswap => exact absurd hswap (h .freeSwap)
    · rfl

end MemoryFigures

/-! ### Lines -/

/-- Blanks within a line. -/
def InlineBlanks (s : String) : Prop :=
  Text.Blanks s.toList ∧ '\n' ∉ s.toList

instance (s : String) : Decidable (InlineBlanks s) :=
  inferInstanceAs (Decidable (Text.Blanks s.toList ∧ '\n' ∉ s.toList))

/-- **A line that gives a figure**: its name, a colon, a number and the unit of 1024 bytes, with
blanks around them all and at least one between number and unit. -/
structure FigureLine where
  key : MemoryKey
  amount : Nat
  beforeName : String := ""
  afterName : String := ""
  beforeAmount : String := " "
  beforeUnit : String := " "
  afterUnit : String := ""
  blanks_beforeName : InlineBlanks beforeName := by decide
  blanks_afterName : InlineBlanks afterName := by decide
  blanks_beforeAmount : InlineBlanks beforeAmount := by decide
  blanks_beforeUnit : InlineBlanks beforeUnit := by decide
  blanks_afterUnit : InlineBlanks afterUnit := by decide
  beforeUnit_ne_empty : beforeUnit ≠ "" := by decide

/-- **Any other line**: one without a colon, or with another name in front of the first. -/
structure OtherLine where
  text : String
  one_line : '\n' ∉ text.toList := by decide
  other : ':' ∉ text.toList ∨ ∀ key : MemoryKey,
    Text.trim (String.ofList (text.toList.takeWhile (· != ':'))) ≠ key.name := by decide

namespace FigureLine

/-- What stands behind the colon. -/
def value (line : FigureLine) : List Char :=
  line.beforeAmount.toList ++ ((toString line.amount).toList ++ (line.beforeUnit.toList ++
    ("kB".toList ++ line.afterUnit.toList)))

def text (line : FigureLine) : String :=
  line.beforeName ++ line.key.name ++ line.afterName ++ ":" ++ line.beforeAmount ++
    toString line.amount ++ line.beforeUnit ++ "kB" ++ line.afterUnit

variable (line : FigureLine)

theorem isWord_name (key : MemoryKey) : Text.IsWord key.name.toList := by
  cases key <;> decide

theorem isWord_amount : Text.IsWord (toString line.amount).toList :=
  Text.isWord_toString line.amount

theorem words_value :
    Text.words (String.ofList line.value) = [toString line.amount, "kB"] := by
  have hgap : line.beforeUnit.toList ≠ [] := mt String.toList_eq_nil_iff.1 line.beforeUnit_ne_empty
  rw [Text.words, String.toList_ofList, value,
    Text.wordsOf_blanks_append line.blanks_beforeAmount.1,
    Text.wordsOf_word_append line.isWord_amount (line.blanks_beforeUnit.1.endsWord_append hgap),
    Text.wordsOf_blanks_append line.blanks_beforeUnit.1,
    Text.wordsOf_word_append (by decide) line.blanks_afterUnit.1.endsWord,
    Text.wordsOf_of_blanks line.blanks_afterUnit.1]
  simp only [List.map_cons, List.map_nil, String.ofList_toList]

/-- The figure in bytes, if it fits 64 bits. -/
def bytes? : Option Nat :=
  if 1024 * line.amount < 2 ^ 64 then some (1024 * line.amount) else none

theorem bytes?_eq_some_iff {bytes : Nat} :
    line.bytes? = some bytes ↔ bytes = 1024 * line.amount ∧ bytes < 2 ^ 64 := by
  rw [bytes?, Option.ite_none_right_eq_some, Option.some.injEq]
  constructor
  · rintro ⟨hfits, rfl⟩
    exact ⟨rfl, hfits⟩
  · rintro ⟨rfl, hfits⟩
    exact ⟨hfits, rfl⟩

/-- **The value of a line is its figure in bytes**, unless that does not fit 64 bits. -/
theorem memoryFigure?_value : memoryFigure? line.value = line.bytes? := by
  rw [memoryFigure?, line.words_value, bytes?]
  simp only [Decimal.unsigned?_toString]
  by_cases hfits : 1024 * line.amount < 2 ^ 64
  · have hamount : line.amount < 2 ^ 64 := by omega
    rw [if_pos hamount, if_pos hfits, Option.bind_some, if_pos ⟨trivial, hfits⟩]
  · rw [if_neg hfits]
    split
    · rw [Option.bind_some, if_neg fun h => hfits h.2]
    · rfl

theorem toList_text : line.text.toList =
    (line.beforeName.toList ++ (line.key.name.toList ++ line.afterName.toList)) ++
      ':' :: line.value := by
  simp [text, value]

theorem colon_not_mem_front :
    ':' ∉ line.beforeName.toList ++ (line.key.name.toList ++ line.afterName.toList) := by
  have hblank : Text.isBlank ':' = false := by decide
  have hname : ':' ∉ line.key.name.toList := by
    cases line.key <;> decide
  simp only [List.mem_append, not_or]
  exact ⟨line.blanks_beforeName.1.not_mem hblank, hname,
    line.blanks_afterName.1.not_mem hblank⟩

/-- A figure is given in one line. -/
theorem one_line : '\n' ∉ line.text.toList := by
  have hname : '\n' ∉ line.key.name.toList := by
    cases line.key <;> decide
  have hamount : '\n' ∉ (toString line.amount).toList := by
    intro hmem
    exact absurd (line.isWord_amount.2 _ hmem) (by decide)
  rw [toList_text, value]
  simp only [List.mem_append, List.mem_cons, not_or]
  exact ⟨⟨line.blanks_beforeName.2, hname, line.blanks_afterName.2⟩, by decide,
    line.blanks_beforeAmount.2, hamount, line.blanks_beforeUnit.2, by decide,
    line.blanks_afterUnit.2⟩

/-- **A line of a figure sets the figure it names.** -/
theorem readLine_text (f : MemoryFigures) :
    f.readLine line.text.toList = f.set line.key line.bytes? := by
  have htrim : Text.trim (String.ofList
      (line.beforeName.toList ++ (line.key.name.toList ++ line.afterName.toList))) =
        line.key.name := by
    rw [Text.trim_padded line.blanks_beforeName.1 (isWord_name line.key) line.blanks_afterName.1,
      String.ofList_toList]
  rw [toList_text, f.readLine_of_named line.colon_not_mem_front htrim, memoryFigure?_value]

end FigureLine

/-- **Any other line does nothing.** -/
theorem OtherLine.readLine_text (line : OtherLine) (f : MemoryFigures) :
    f.readLine line.text.toList = f := by
  rcases line.other with hcolon | hname
  · exact f.readLine_of_no_colon hcolon
  · exact f.readLine_of_other_name hname

/-! ### Reports -/

/-- A line of a report. -/
inductive MemoryLine where
  | figure (line : FigureLine)
  | other (line : OtherLine)

namespace MemoryLine

def text : MemoryLine → String
  | figure line => line.text
  | other line => line.text

/-- The figure that a line gives and its number of units. -/
def given? : MemoryLine → Option (MemoryKey × Nat)
  | figure line => some (line.key, line.amount)
  | other _ => none

/-- What the lines of a report give, in order. -/
def given (lines : List MemoryLine) : List (MemoryKey × Nat) :=
  lines.filterMap given?

/-- The text of a report. It ends with a line break if its last line is empty. -/
def textOf (lines : List MemoryLine) : String :=
  "\n".intercalate (lines.map text)

/-- **What lines tell of a figure**: 1024 times the number that one of them gives, if that fits
64 bits. -/
def Tells (lines : List MemoryLine) (key : MemoryKey) (bytes : Nat) : Prop :=
  ∃ n, (key, n) ∈ given lines ∧ bytes = 1024 * n ∧ bytes < 2 ^ 64

theorem one_line (line : MemoryLine) : '\n' ∉ line.text.toList := by
  cases line with
  | figure line => exact line.one_line
  | other line => exact line.one_line

/-- The lines of a report are found again. -/
theorem splitOn_textOf {lines : List MemoryLine} (hne : lines ≠ []) :
    (textOf lines).toList.splitOn '\n' = lines.map fun line => line.text.toList := by
  have hlines : ∀ l ∈ lines.map fun line => line.text.toList, '\n' ∉ l := by
    intro l hl
    obtain ⟨line, -, rfl⟩ := List.mem_map.1 hl
    exact line.one_line
  rw [textOf, String.toList_intercalate, List.map_map]
  exact List.splitOn_intercalate '\n' hlines (by simpa using hne)

theorem figures_textOf (lines : List MemoryLine) : MemoryFigures.ofText (textOf lines) =
    lines.foldl (fun f line => f.readLine line.text.toList) {} := by
  rcases eq_or_ne lines [] with rfl | hne
  · rfl
  · rw [MemoryFigures.ofText, splitOn_textOf hne, List.foldl_map]

theorem tells_figure_cons {line : FigureLine} {lines : List MemoryLine} {key : MemoryKey}
    {bytes : Nat} : Tells (.figure line :: lines) key bytes ↔
      (key = line.key ∧ bytes = 1024 * line.amount ∧ bytes < 2 ^ 64) ∨ Tells lines key bytes := by
  have hgiven : given (.figure line :: lines) = (line.key, line.amount) :: given lines := rfl
  simp only [Tells, hgiven, List.mem_cons, Prod.mk.injEq]
  constructor
  · rintro ⟨n, ⟨hkey, rfl⟩ | hmem, hbytes⟩
    · exact .inl ⟨hkey, hbytes⟩
    · exact .inr ⟨n, hmem, hbytes⟩
  · rintro (⟨hkey, hbytes⟩ | ⟨n, hmem, hbytes⟩)
    · exact ⟨line.amount, .inl ⟨hkey, rfl⟩, hbytes⟩
    · exact ⟨n, .inr hmem, hbytes⟩

theorem mem_keys_of_tells {lines : List MemoryLine} {key : MemoryKey} {bytes : Nat}
    (h : Tells lines key bytes) : key ∈ (given lines).map Prod.fst := by
  obtain ⟨n, hmem, -⟩ := h
  exact List.mem_map.2 ⟨(key, n), hmem, rfl⟩

/-- What is known of a figure after some lines: what they tell, or what was known before if they
do not give it. -/
theorem get_foldl_readLine {lines : List MemoryLine} (h : ((given lines).map Prod.fst).Nodup)
    (f : MemoryFigures) (key : MemoryKey) (bytes : Nat) :
    (lines.foldl (fun f line => f.readLine line.text.toList) f).get key = some bytes ↔
      Tells lines key bytes ∨ key ∉ (given lines).map Prod.fst ∧ f.get key = some bytes := by
  induction lines generalizing f with
  | nil => simp [Tells, given]
  | cons line lines ih =>
    cases line with
    | other line =>
      have hgiven : given (.other line :: lines) = given lines := rfl
      rw [List.foldl_cons, MemoryLine.text, line.readLine_text, Tells, hgiven]
      exact ih h f
    | figure line =>
      have hkeys : (given (.figure line :: lines)).map Prod.fst =
          line.key :: (given lines).map Prod.fst := rfl
      rw [hkeys, List.nodup_cons] at h
      rw [List.foldl_cons, MemoryLine.text, line.readLine_text, ih h.2, MemoryFigures.get_set,
        tells_figure_cons, hkeys, List.mem_cons, not_or]
      by_cases hkey : key = line.key
      · -- The line sets the figure, and none of the others gives it.
        have hlater : ¬Tells lines key bytes := fun htells => h.1 (hkey ▸ mem_keys_of_tells htells)
        rw [if_pos hkey]
        rw [line.bytes?_eq_some_iff]
        constructor
        · rintro (htells | ⟨-, hbytes⟩)
          · exact absurd htells hlater
          · exact .inl (.inl ⟨hkey, hbytes⟩)
        · rintro ((⟨-, hbytes⟩ | htells) | ⟨⟨hne, -⟩, -⟩)
          · exact .inr ⟨hkey ▸ h.1, hbytes⟩
          · exact absurd htells hlater
          · exact absurd hkey hne
      · rw [if_neg hkey]
        simp only [hkey, false_and, false_or, not_false_eq_true, true_and]

/-- **All lines together leave the figures that they tell.** -/
theorem get_figures_textOf {lines : List MemoryLine} (h : ((given lines).map Prod.fst).Nodup)
    (key : MemoryKey) (bytes : Nat) :
    (MemoryFigures.ofText (textOf lines)).get key = some bytes ↔ Tells lines key bytes := by
  rw [figures_textOf, get_foldl_readLine h, MemoryFigures.get_empty]
  simp

theorem tells_perm {lines others : List MemoryLine} (h : (given others).Perm (given lines))
    (key : MemoryKey) (bytes : Nat) : Tells others key bytes ↔ Tells lines key bytes :=
  exists_congr fun _ => and_congr_left' h.mem_iff

/-- Figures that are given in another order, or among other lines, are the same. -/
theorem figures_textOf_perm {lines others : List MemoryLine}
    (h : ((given lines).map Prod.fst).Nodup) (hperm : (given others).Perm (given lines)) :
    MemoryFigures.ofText (textOf others) = MemoryFigures.ofText (textOf lines) := by
  have hothers : ((given others).map Prod.fst).Nodup := (hperm.map Prod.fst).nodup_iff.2 h
  refine MemoryFigures.ext_get fun key => Option.ext fun bytes => ?_
  rw [get_figures_textOf hothers, get_figures_textOf h, tells_perm hperm]

end MemoryLine

/-! ### The memory -/

namespace SystemMemory

section OfFigures

variable {f : MemoryFigures} {m : SystemMemory}

theorem ofFigures_eq_ok_iff : ofFigures f = .ok m ↔ f.total = some m.totalPhysical ∧
    f.available.or f.free = some m.availablePhysical ∧ m.totalSwap = f.totalSwap.getD 0 ∧
      m.availableSwap = f.freeSwap.getD 0 := by
  rw [ofFigures, Option.orElse_eq_orElse, Option.orElse_eq_or]
  split
  · next htotal => simp [htotal]
  · next htotal havailable => simp [havailable]
  · next total available htotal havailable =>
    rw [htotal, havailable]
    constructor
    · rintro ⟨⟩
      exact ⟨rfl, rfl, rfl, rfl⟩
    · rintro ⟨⟨⟩, ⟨⟩, hswap, hfree⟩
      rw [← hswap, ← hfree]

theorem exists_ofFigures_eq_ok_iff : (∃ m, ofFigures f = .ok m) ↔ (∃ bytes, f.total = some bytes) ∧
    ((∃ bytes, f.available = some bytes) ∨ ∃ bytes, f.free = some bytes) := by
  simp only [← Option.isSome_iff_exists, ← Bool.or_eq_true, ← Option.isSome_or]
  constructor
  · rintro ⟨m, hm⟩
    obtain ⟨htotal, havailable, -⟩ := ofFigures_eq_ok_iff.1 hm
    rw [htotal, havailable]
    exact ⟨rfl, rfl⟩
  · rintro ⟨htotal, havailable⟩
    obtain ⟨total, htotal⟩ := Option.isSome_iff_exists.1 htotal
    obtain ⟨available, havailable⟩ := Option.isSome_iff_exists.1 havailable
    exact ⟨⟨total, available, _, _⟩, ofFigures_eq_ok_iff.2 ⟨htotal, havailable, rfl, rfl⟩⟩

theorem ofFigures_of_total (h : f.total = none) :
    ofFigures f = .error (.malformed "meminfo: MemTotal") := by
  rw [ofFigures, h]

theorem ofFigures_of_free {total : Nat} (htotal : f.total = some total)
    (havailable : f.available = none) (hfree : f.free = none) :
    ofFigures f = .error (.malformed "meminfo: MemFree") := by
  rw [ofFigures, htotal, havailable, hfree]
  rfl

theorem eq_getD_zero_iff {o : Option Nat} {n : Nat} :
    n = o.getD 0 ↔ o = some n ∨ o = none ∧ n = 0 := by
  cases o with
  | none => simp
  | some k => simp [eq_comm]

end OfFigures

open MemoryLine (Tells given textOf)

/-- **The memory that lines tell of.** Free memory stands in for available memory that is not
told, and swap that is not told is none. -/
@[mk_iff]
structure ToldBy (m : SystemMemory) (lines : List MemoryLine) : Prop where
  total : Tells lines .total m.totalPhysical
  available : Tells lines .available m.availablePhysical ∨
    (∀ bytes, ¬Tells lines .available bytes) ∧ Tells lines .free m.availablePhysical
  totalSwap : Tells lines .totalSwap m.totalSwap ∨
    (∀ bytes, ¬Tells lines .totalSwap bytes) ∧ m.totalSwap = 0
  availableSwap : Tells lines .freeSwap m.availableSwap ∨
    (∀ bytes, ¬Tells lines .freeSwap bytes) ∧ m.availableSwap = 0

/-- **What a report is read as**, if no two of its lines give the same figure. It is memory
exactly if it tells how much there is and how much of it is available or free, and then the
memory that it tells of; otherwise the first figure that is missing is named. The order of the
lines and those that give no figure do not matter. -/
theorem ofText_textOf {lines : List MemoryLine} (h : ((given lines).map Prod.fst).Nodup) :
    ((∃ m, ofText (textOf lines) = .ok m) ↔ (∃ bytes, Tells lines .total bytes) ∧
      ((∃ bytes, Tells lines .available bytes) ∨ ∃ bytes, Tells lines .free bytes)) ∧
    (∀ m, ofText (textOf lines) = .ok m ↔ ToldBy m lines) ∧
    ((∀ bytes, ¬Tells lines .total bytes) →
      ofText (textOf lines) = .error (.malformed "meminfo: MemTotal")) ∧
    ((∃ bytes, Tells lines .total bytes) → (∀ bytes, ¬Tells lines .available bytes) →
      (∀ bytes, ¬Tells lines .free bytes) →
        ofText (textOf lines) = .error (.malformed "meminfo: MemFree")) ∧
    ∀ others, (given others).Perm (given lines) →
      ofText (textOf others) = ofText (textOf lines) := by
  have htells : ∀ key bytes,
      (MemoryFigures.ofText (textOf lines)).get key = some bytes ↔ Tells lines key bytes :=
    MemoryLine.get_figures_textOf h
  have hmissing : ∀ key, (MemoryFigures.ofText (textOf lines)).get key = none ↔
      ∀ bytes, ¬Tells lines key bytes := by
    intro key
    simp only [Option.eq_none_iff_forall_ne_some, ne_eq, htells]
  have htold : ∀ m, ofText (textOf lines) = .ok m ↔ ToldBy m lines := by
    intro m
    rw [ofText, ofFigures_eq_ok_iff, Option.or_eq_some_iff, eq_getD_zero_iff, eq_getD_zero_iff,
      toldBy_iff]
    exact and_congr (htells .total _) <| and_congr
      (or_congr (htells .available _) (and_congr (hmissing .available) (htells .free _))) <|
      and_congr (or_congr (htells .totalSwap _) (and_congr_left' (hmissing .totalSwap)))
        (or_congr (htells .freeSwap _) (and_congr_left' (hmissing .freeSwap)))
  refine ⟨?_, htold, fun htotal => ?_, fun ⟨total, htotal⟩ havailable hfree => ?_, ?_⟩
  · rw [ofText, exists_ofFigures_eq_ok_iff]
    exact and_congr (exists_congr (htells .total)) (or_congr (exists_congr (htells .available))
      (exists_congr (htells .free)))
  · exact ofFigures_of_total ((hmissing .total).2 htotal)
  · exact ofFigures_of_free ((htells .total total).2 htotal) ((hmissing .available).2 havailable)
      ((hmissing .free).2 hfree)
  · intro others hperm
    rw [ofText, ofText, MemoryLine.figures_textOf_perm h hperm]

/-- Available memory that does not fit, free memory in its place, a total that just fits, and no
swap; with other lines, blanks that are no spaces, and a line break at the end. -/
theorem ofText_textOf_free_in_place :
    let lines : List MemoryLine := [
      .other { text := "SwapCached: 0 kB" },
      .figure { key := .available, amount := 2 ^ 54 },
      .figure { key := .free, amount := 912344, beforeAmount := "\t", beforeUnit := "  " },
      .other { text := "SwapFree" },
      .figure { key := .total, amount := 2 ^ 54 - 1, beforeName := "\u3000", afterUnit := "\r" },
      .other { text := "" }]
    ((given lines).map Prod.fst).Nodup ∧
      textOf lines = "SwapCached: 0 kB\nMemAvailable: 18014398509481984 kB\n" ++
        "MemFree:\t912344  kB\nSwapFree\n\u3000MemTotal: 18014398509481983 kB\r\n" ∧
      ofText (textOf lines) = .ok {
        totalPhysical := 2 ^ 64 - 1024
        availablePhysical := 934240256
        totalSwap := 0
        availableSwap := 0 } := by
  intro lines
  have hdistinct : ((given lines).map Prod.fst).Nodup := by decide
  have hgiven : given lines =
      [(.available, 2 ^ 54), (.free, 912344), (.total, 2 ^ 54 - 1)] := rfl
  refine ⟨hdistinct, by decide +kernel,
    ((ofText_textOf hdistinct).2.1 _).2 ⟨?_, .inr ⟨?_, ?_⟩, ?_, ?_⟩⟩
  · exact ⟨2 ^ 54 - 1, by simp [hgiven], by decide, by decide⟩
  · rintro bytes ⟨n, hmem, rfl, hfits⟩
    have hn : n = 2 ^ 54 := by simpa [hgiven] using hmem
    omega
  · exact ⟨912344, by simp [hgiven], by decide, by decide⟩
  · exact .inr ⟨fun bytes ⟨n, hmem, _⟩ => by simp [hgiven] at hmem, rfl⟩
  · exact .inr ⟨fun bytes ⟨n, hmem, _⟩ => by simp [hgiven] at hmem, rfl⟩

end SystemMemory

end HostAccess
