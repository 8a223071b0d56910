import HostAccess.Process.CommandLine
import Mathlib.Logic.Basic

/-!
# Splitting a command line undoes writing it

A line of arguments is written by whoever starts a process, and there are many ways to write
it. An argument that is not empty and has no blank and no quote may stand as it is. Any argument
may be put into quotes, and then its own quotes and the backslashes before them are marked by
more backslashes (`HostAccess.escaped`). Between two arguments stands a run of blanks, of any
length but not empty, and there may be more at either end.

A scan that has just read an argument need not stand where it began: behind quotes it waits
for another quote, and behind backslashes it still counts them. All that matters is that it
stands *behind* the argument (`HostAccess.LineScan.Behind`): a blank, or the end of the line,
then completes the argument and nothing else.

* `HostAccess.LineScan.behind_of_written`: reading one argument, in either form;
* `HostAccess.splitCommandLine_joined`: the main result, for whole lines.
-/

namespace HostAccess

/-! ### Writing -/

/-- The text inside quotes: behind `slashes` backslashes that are still to be written, the
characters of an argument. In front of a quote, and at the end, they are written twice, and a
quote of the argument has one more in front of it. -/
def escaped (slashes : Nat) : List Char → List Char
  | [] => List.replicate (2 * slashes) '\\'
  | c :: cs =>
    if c = '\\' then escaped (slashes + 1) cs
    else if c = '"' then List.replicate (2 * slashes + 1) '\\' ++ '"' :: escaped 0 cs
    else List.replicate slashes '\\' ++ c :: escaped 0 cs

/-- An argument inside quotes. -/
def inQuotes (text : String) : List Char :=
  '"' :: escaped 0 text.toList ++ ['"']

/-- A run of blanks. -/
def Blanks (cs : List Char) : Prop :=
  ∀ c ∈ cs, c = ' ' ∨ c = '\t'

/-- **An argument as it may be written.** -/
inductive Written (text : String) : List Char → Prop where
  | bare (ne : text ≠ "") (plain : ∀ c ∈ text.toList, c ≠ ' ' ∧ c ≠ '\t' ∧ c ≠ '"') :
      Written text text.toList
  | quoted : Written text (inQuotes text)

/-- **Arguments as they may be written in a line**, with blanks between them. -/
inductive Joined : List String → List Char → Prop where
  | nil : Joined [] []
  | single {text : String} {cs : List Char} (written : Written text cs) : Joined [text] cs
  | cons {text next : String} {texts : List String} {cs gap line : List Char}
      (written : Written text cs) (ne : gap ≠ []) (blanks : Blanks gap)
      (more : Joined (next :: texts) line) :
      Joined (text :: next :: texts) (cs ++ gap ++ line)

/-- Any arguments can be written. -/
theorem exists_joined (texts : List String) : ∃ line, Joined texts line := by
  induction texts with
  | nil => exact ⟨[], .nil⟩
  | cons text texts ih =>
    cases texts with
    | nil => exact ⟨_, .single .quoted⟩
    | cons next texts =>
      obtain ⟨line, hline⟩ := ih
      exact ⟨_, .cons .quoted (List.cons_ne_nil ' ' []) (by simp [Blanks]) hline⟩

namespace LineScan

variable {s : LineScan} {complete : List String} {cs front : List Char}

/-! ### Reading an argument -/

/-- **A scan behind an argument**: a blank or the end of the line completes it. -/
structure Behind (s : LineScan) (complete : List String) (argument : List Char) : Prop where
  complete : s.complete = complete
  argument : s.argument? = some argument.reverse
  outside : s.quoting.settled = .outside

section Inside

variable (n : Nat)

/-- Inside quotes backslashes are counted. -/
theorem foldl_read_slashes (k : Nat) :
    (List.replicate k '\\').foldl read ⟨complete, some front, n, .inside⟩ =
      ⟨complete, some front, n + k, .inside⟩ := by
  induction k generalizing n with
  | zero => rfl
  | succ k ih =>
    have hread : read ⟨complete, some front, n, .inside⟩ '\\' =
        ⟨complete, some front, n + 1, .inside⟩ := rfl
    rw [List.replicate_succ, List.foldl_cons, hread, ih, Nat.add_right_comm, Nat.add_assoc]

/-- A quote behind twice as many backslashes closes quoting. -/
theorem read_quote_even : read ⟨complete, some front, 2 * n, .inside⟩ '"' =
    ⟨complete, some (List.replicate n '\\' ++ front), 0, .closing⟩ := by
  have hhalf : 2 * n / 2 = n := by omega
  have heven : ¬2 * n % 2 = 1 := by omega
  rw [read, if_pos rfl, readQuote, if_neg heven]
  simp [argument?, hhalf]

/-- A quote behind one backslash more belongs to the argument. -/
theorem read_quote_odd : read ⟨complete, some front, 2 * n + 1, .inside⟩ '"' =
    ⟨complete, some ('"' :: (List.replicate n '\\' ++ front)), 0, .inside⟩ := by
  have hhalf : (2 * n + 1) / 2 = n := by omega
  have hodd : (2 * n + 1) % 2 = 1 := by omega
  rw [read, if_pos rfl, readQuote, if_pos hodd]
  simp [push, argument?, hhalf]

/-- Any other character belongs to the argument, and so do the backslashes before it. -/
theorem read_inside {c : Char} (hquote : c ≠ '"') (hslash : c ≠ '\\') :
    read ⟨complete, some front, n, .inside⟩ c =
      ⟨complete, some (c :: (List.replicate n '\\' ++ front)), 0, .inside⟩ := by
  simp [read, hquote, hslash, Quoting.settled, push, argument?]

/-- **Reading to the closing quote**: what was written for the characters is read as those
characters, behind the backslashes that they were to have in front. -/
theorem foldl_read_escaped (cs front : List Char) :
    (escaped n cs ++ ['"']).foldl read ⟨complete, some front, 0, .inside⟩ =
      ⟨complete, some (cs.reverse ++ List.replicate n '\\' ++ front), 0, .closing⟩ := by
  induction cs generalizing n front with
  | nil =>
    rw [escaped, List.foldl_append, foldl_read_slashes, Nat.zero_add, List.foldl_cons,
      read_quote_even]
    rfl
  | cons c cs ih =>
    by_cases hslash : c = '\\'
    · rw [escaped, if_pos hslash, ih, hslash]
      simp [List.replicate_succ]
    by_cases hquote : c = '"'
    · rw [escaped, if_neg hslash, if_pos hquote, List.append_assoc, List.foldl_append,
        foldl_read_slashes, Nat.zero_add, List.cons_append, List.foldl_cons, read_quote_odd, ih,
        hquote]
      simp
    · rw [escaped, if_neg hslash, if_neg hquote, List.append_assoc, List.foldl_append,
        foldl_read_slashes, Nat.zero_add, List.cons_append, List.foldl_cons,
        read_inside n hquote hslash, ih]
      simp

end Inside

/-! ### Arguments as they stand -/

section Plain

variable {c : Char} (hplain : c ≠ ' ' ∧ c ≠ '\t' ∧ c ≠ '"')

include hplain

theorem behind_read_first : (read ⟨complete, none, 0, .outside⟩ c).Behind complete [c] := by
  obtain ⟨hspace, htab, hquote⟩ := hplain
  by_cases hslash : c = '\\'
  · subst hslash
    exact ⟨rfl, rfl, rfl⟩
  · simp only [read, if_neg hquote, if_neg hslash, hspace, htab, or_self, false_and, if_false]
    exact ⟨rfl, rfl, rfl⟩

theorem Behind.read_plain (h : s.Behind complete front) :
    (s.read c).Behind complete (front ++ [c]) := by
  obtain ⟨hspace, htab, hquote⟩ := hplain
  obtain ⟨rfl, hargument, houtside⟩ := h
  obtain ⟨before, hcurrent, hfront⟩ := Option.map_eq_some_iff.1 hargument
  by_cases hslash : c = '\\'
  · subst hslash
    have hquoting : (s.read '\\').quoting = .outside := houtside
    refine ⟨rfl, ?_, congrArg Quoting.settled hquoting⟩
    simp [read, argument?, hcurrent, ← hfront, List.replicate_succ]
  · simp only [read, if_neg hquote, if_neg hslash, hspace, htab, or_self, false_and, if_false]
    refine ⟨rfl, ?_, ?_⟩
    · simp [push, argument?, hcurrent, ← hfront]
    · rw [push, houtside]
      rfl

end Plain

theorem Behind.foldl_read_plain (h : s.Behind complete front)
    (plain : ∀ c ∈ cs, c ≠ ' ' ∧ c ≠ '\t' ∧ c ≠ '"') :
    (cs.foldl read s).Behind complete (front ++ cs) := by
  induction cs generalizing s front with
  | nil => simpa using h
  | cons c cs ih =>
    obtain ⟨hc, hcs⟩ := List.forall_mem_cons.1 plain
    have hmore := ih (h.read_plain hc) hcs
    rwa [List.append_assoc, List.singleton_append] at hmore

/-- **Reading an argument** in either form, from where no argument is under way. -/
theorem behind_of_written {text : String} (h : Written text cs) :
    (cs.foldl read ⟨complete, none, 0, .outside⟩).Behind complete text.toList := by
  cases h with
  | bare ne plain =>
    cases htext : text.toList with
    | nil => exact absurd (String.toList_eq_nil_iff.1 htext) ne
    | cons c cs =>
      obtain ⟨hc, hcs⟩ := List.forall_mem_cons.1 (htext ▸ plain)
      exact (behind_read_first hc).foldl_read_plain hcs
  | quoted =>
    have hopen : read ⟨complete, none, 0, .outside⟩ '"' = ⟨complete, some [], 0, .inside⟩ := by
      simp [read, readQuote, argument?]
    rw [inQuotes, List.cons_append, List.foldl_cons, hopen, foldl_read_escaped]
    exact ⟨rfl, by simp [argument?], rfl⟩

/-! ### Reading blanks -/

theorem read_blank {c : Char} (hc : c = ' ' ∨ c = '\t') (h : s.quoting.settled = .outside) :
    s.read c = s.endArgument := by
  rcases hc with rfl | rfl
  · simp [read, h]
  · simp [read, h]

theorem Behind.endArgument (h : s.Behind complete cs) :
    s.endArgument = ⟨String.ofList cs :: complete, none, 0, .outside⟩ := by
  rw [LineScan.endArgument, h.argument, h.complete]
  simp

/-- Between arguments blanks are passed over. -/
theorem foldl_read_blanks (h : Blanks cs) :
    cs.foldl read ⟨complete, none, 0, .outside⟩ = ⟨complete, none, 0, .outside⟩ := by
  induction cs with
  | nil => rfl
  | cons c cs ih =>
    obtain ⟨hc, hcs⟩ := List.forall_mem_cons.1 h
    rw [List.foldl_cons, read_blank hc rfl]
    exact ih hcs

/-- Behind an argument blanks complete it. -/
theorem Behind.foldl_read_blanks {gap : List Char} (h : s.Behind complete cs) (ne : gap ≠ [])
    (hgap : Blanks gap) :
    gap.foldl read s = ⟨String.ofList cs :: complete, none, 0, .outside⟩ := by
  obtain ⟨c, gap, rfl⟩ := List.exists_cons_of_ne_nil ne
  obtain ⟨hc, hgap⟩ := List.forall_mem_cons.1 hgap
  rw [List.foldl_cons, read_blank hc h.outside, h.endArgument, LineScan.foldl_read_blanks hgap]

/-- So does the end of the line, with blanks before it or without. -/
theorem Behind.arguments {gap : List Char} (h : s.Behind complete cs) (hgap : Blanks gap) :
    (gap.foldl read s).arguments = complete.reverse ++ [String.ofList cs] := by
  rcases eq_or_ne gap [] with rfl | ne
  · rw [List.foldl_nil, LineScan.arguments, h.endArgument, List.reverse_cons]
  · rw [h.foldl_read_blanks ne hgap]
    exact List.reverse_cons

/-- **Reading written arguments** puts them behind those that are complete. -/
theorem arguments_of_joined {texts : List String} {line gap : List Char} (h : Joined texts line)
    (hgap : Blanks gap) :
    ((line ++ gap).foldl read ⟨complete, none, 0, .outside⟩).arguments =
      complete.reverse ++ texts := by
  induction h generalizing complete with
  | nil =>
    rw [List.nil_append, foldl_read_blanks hgap, List.append_nil]
    rfl
  | single written =>
    rw [List.foldl_append, (behind_of_written written).arguments hgap, String.ofList_toList]
  | cons written ne blanks more ih =>
    rw [List.append_assoc, List.append_assoc, List.foldl_append, List.foldl_append,
      (behind_of_written written).foldl_read_blanks ne blanks, ih, String.ofList_toList]
    simp

end LineScan

/-- **Splitting undoes writing**: any arguments can be written as a line, and whichever form
each of them was given and whatever blanks stand between them and around them, the line is
split into just these arguments. -/
theorem splitCommandLine_joined (texts : List String) :
    (∃ line, Joined texts line) ∧
      ∀ before line after, Blanks before → Joined texts line → Blanks after →
        splitCommandLine (String.ofList (before ++ line ++ after)) = texts := by
  refine ⟨exists_joined texts, fun before line after hbefore hline hafter => ?_⟩
  rw [splitCommandLine, String.toList_ofList, List.append_assoc, List.foldl_append,
    LineScan.foldl_read_blanks hbefore, LineScan.arguments_of_joined hline hafter]
  rfl

/-- An empty argument, one with a quote inside and a backslash at its end, and one that stands
as it is. -/
theorem splitCommandLine_joined_mixed :
    let texts := ["", "a \"b\\", "c\\\\d\\"]
    let line := inQuotes "" ++ [' ', '\t'] ++ (inQuotes "a \"b\\" ++ [' '] ++ "c\\\\d\\".toList)
    Blanks ['\t'] ∧ Joined texts line ∧ Blanks [] ∧
      String.ofList (['\t'] ++ line ++ []) = "\t\"\" \t\"a \\\"b\\\\\" c\\\\d\\" ∧
      splitCommandLine "\t\"\" \t\"a \\\"b\\\\\" c\\\\d\\" = texts := by
  intro texts line
  have hbefore : Blanks ['\t'] := by simp [Blanks]
  have hafter : Blanks [] := by simp [Blanks]
  have hbare : Written "c\\\\d\\" "c\\\\d\\".toList := .bare (by decide) (by simp)
  have hline : Joined texts line :=
    .cons .quoted (by decide) (by simp [Blanks])
      (.cons .quoted (by decide) (by simp [Blanks]) (.single hbare))
  have htext : String.ofList (['\t'] ++ line ++ []) =
      "\t\"\" \t\"a \\\"b\\\\\" c\\\\d\\" := by decide +kernel
  refine ⟨hbefore, hline, hafter, htext, ?_⟩
  rw [← htext]
  exact (splitCommandLine_joined texts).2 _ _ _ hbefore hline hafter

end HostAccess
