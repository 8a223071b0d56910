import HostAccess.Proofs.Process.CommandLine

/-!
# Where a command line may be cut

Two lines with a run of blanks between them make a longer line. Its arguments are those of the
first line and then those of the second, if the first line ends outside quotes
(`HostAccess.EndsOutside`), and in no other case: inside quotes the blanks belong to an argument
that goes on.

A scan that comes to the blanks may still count backslashes, or wait behind a quote for another
one. Outside quotes the first blank settles all that and completes the argument under way, so that
the second line is read as if nothing were before it, apart from the arguments that are complete
(`HostAccess.LineScan.behind`). What a single character can do to a scan is said once, in
`HostAccess.LineScan.read_cases`: it completes the argument under way, or adds to it.

* `HostAccess.LineScan.foldl_read_behind`: complete arguments have no say in what is read next;
* `HostAccess.LineScan.foldl_read_gap`: blanks outside quotes;
* `HostAccess.LineScan.Opens.foldl_read`: an argument keeps the front that it has;
* `HostAccess.splitCommandLine_append_iff`: the main result.
-/

namespace HostAccess

/-- **A line ends outside quotes.** A quote at the end of the line has no other quote behind it,
so it closes. -/
def EndsOutside (line : String) : Prop :=
  (line.toList.foldl LineScan.read {}).quoting.settled = .outside

instance (line : String) : Decidable (EndsOutside line) :=
  inferInstanceAs (Decidable (_ = _))

theorem Quoting.eq_inside_of_settled {q : Quoting} (h : q.settled ≠ .outside) : q = .inside := by
  cases q with
  | inside => rfl
  | outside => exact absurd rfl h
  | closing => exact absurd rfl h

namespace LineScan

variable {s : LineScan} {c : Char} {cs gap front : List Char} {complete : List String}

/-! ### Arguments before those of a scan -/

/-- The same scan, behind arguments that were complete before, latest first. -/
def behind (s : LineScan) (earlier : List String) : LineScan :=
  { s with complete := s.complete ++ earlier }

section Behind

variable (s : LineScan) (earlier : List String)

theorem endArgument_behind : (s.behind earlier).endArgument = s.endArgument.behind earlier := by
  cases h : s.argument? with
  | none =>
    have h' : (s.behind earlier).argument? = none := h
    rw [endArgument, endArgument, h, h']
    rfl
  | some cs =>
    have h' : (s.behind earlier).argument? = some cs := h
    rw [endArgument, endArgument, h, h']
    rfl

theorem readQuote_behind : (s.behind earlier).readQuote = s.readQuote.behind earlier := by
  by_cases hodd : s.slashes % 2 = 1
  · have hodd' : (s.behind earlier).slashes % 2 = 1 := hodd
    rw [readQuote, if_pos hodd', readQuote, if_pos hodd]
    rfl
  · have hodd' : ¬(s.behind earlier).slashes % 2 = 1 := hodd
    rw [readQuote, if_neg hodd', readQuote, if_neg hodd]
    obtain ⟨complete, current, slashes, quoting⟩ := s
    cases quoting <;> rfl

/-- **A character is read in the same way behind other arguments.** -/
theorem read_behind (c : Char) : (s.behind earlier).read c = (s.read c).behind earlier := by
  by_cases hquote : c = '"'
  · rw [read, if_pos hquote, read, if_pos hquote, readQuote_behind]
  by_cases hslash : c = '\\'
  · simp only [read, if_neg hquote, if_pos hslash]
    rfl
  by_cases hblank : (c = ' ' ∨ c = '\t') ∧ s.quoting.settled = .outside
  · have hblank' : (c = ' ' ∨ c = '\t') ∧ (s.behind earlier).quoting.settled = .outside := hblank
    simp only [read, if_neg hquote, if_neg hslash, if_pos hblank, if_pos hblank']
    exact endArgument_behind s earlier
  · have hblank' : ¬((c = ' ' ∨ c = '\t') ∧ (s.behind earlier).quoting.settled = .outside) :=
      hblank
    simp only [read, if_neg hquote, if_neg hslash, if_neg hblank, if_neg hblank']
    rfl

/-- **So is a line.** -/
theorem foldl_read_behind (cs : List Char) :
    cs.foldl read (s.behind earlier) = (cs.foldl read s).behind earlier := by
  induction cs generalizing s with
  | nil => rfl
  | cons c cs ih => rw [List.foldl_cons, read_behind, ih, List.foldl_cons]

theorem arguments_behind : (s.behind earlier).arguments = earlier.reverse ++ s.arguments := by
  rw [arguments, endArgument_behind, behind, List.reverse_append, arguments]

end Behind

/-- **Blanks outside quotes** complete the argument under way and leave nothing of it behind. -/
theorem foldl_read_gap (h : s.quoting.settled = .outside) (ne : gap ≠ []) (hgap : Blanks gap) :
    gap.foldl read s = behind {} s.endArgument.complete := by
  obtain ⟨c, gap, rfl⟩ := List.exists_cons_of_ne_nil ne
  obtain ⟨hc, hgap⟩ := List.forall_mem_cons.1 hgap
  have hfirst : s.read c = ⟨s.endArgument.complete, none, 0, .outside⟩ := read_blank hc h
  rw [List.foldl_cons, hfirst, foldl_read_blanks hgap]
  rfl

/-! ### Arguments that go on -/

/-- **A scan adds to the argument under way** and completes nothing. Where no argument is under
way, it starts one. -/
structure AddsTo (s s' : LineScan) : Prop where
  complete : s'.complete = s.complete
  current : ∃ more, s'.current = some (more ++ s.current.getD [])

theorem AddsTo.trans {s s' s'' : LineScan} (h : s.AddsTo s') (h' : s'.AddsTo s'') :
    s.AddsTo s'' := by
  obtain ⟨hcomplete, more, hmore⟩ := h
  obtain ⟨hcomplete', more', hmore'⟩ := h'
  refine ⟨hcomplete'.trans hcomplete, more' ++ more, ?_⟩
  rw [hmore', hmore, Option.getD_some, List.append_assoc]

theorem addsTo_push (s : LineScan) (c : Char) (q : Quoting) : s.AddsTo (s.push c q) := by
  refine ⟨rfl, ?_⟩
  cases hcurrent : s.current with
  | none => exact ⟨[c], by simp [push, argument?, hcurrent]⟩
  | some cs => exact ⟨c :: List.replicate s.slashes '\\', by simp [push, argument?, hcurrent]⟩

theorem addsTo_readQuote (s : LineScan) : s.AddsTo s.readQuote := by
  -- the argument that is there, or an empty one, with half of the backslashes still counted
  have hhalved (n : Nat) (q : Quoting) :
      s.AddsTo { s with current := some (s.current.getD []), slashes := n, quoting := q } :=
    ⟨rfl, [], rfl⟩
  have hsettled (n : Nat) (q : Quoting) :
      s.AddsTo { s with
        current := some (List.replicate n '\\' ++ s.current.getD []), slashes := 0, quoting := q } :=
    ⟨rfl, List.replicate n '\\', rfl⟩
  rw [readQuote]
  by_cases hodd : s.slashes % 2 = 1
  · rw [if_pos hodd]
    exact (hhalved _ _).trans (addsTo_push _ _ _)
  · rw [if_neg hodd]
    cases hquoting : s.quoting with
    | outside => exact hsettled _ _
    | inside => exact hsettled _ _
    | closing => exact (hsettled _ _).trans (addsTo_push _ _ _)

/-- **What reading a character does**: it completes the argument under way or adds to it. -/
theorem read_cases (s : LineScan) (c : Char) : s.read c = s.endArgument ∨ s.AddsTo (s.read c) := by
  by_cases hquote : c = '"'
  · right
    rw [read, if_pos hquote]
    exact s.addsTo_readQuote
  by_cases hslash : c = '\\'
  · right
    simp only [read, if_neg hquote, if_pos hslash]
    exact ⟨rfl, [], rfl⟩
  by_cases hblank : (c = ' ' ∨ c = '\t') ∧ s.quoting.settled = .outside
  · left
    simp only [read, if_neg hquote, if_neg hslash, if_pos hblank]
  · right
    simp only [read, if_neg hquote, if_neg hslash, if_neg hblank]
    exact s.addsTo_push c _

/-- A character that leaves a scan inside quotes leaves an argument under way. -/
theorem exists_current_of_inside (cs : List Char) (h : (cs.foldl read {}).quoting = .inside) :
    ∃ current, (cs.foldl read {}).current = some current := by
  rcases List.eq_nil_or_concat cs with rfl | ⟨cs, c, rfl⟩
  · cases h
  · rw [List.concat_eq_append, List.foldl_append, List.foldl_cons, List.foldl_nil] at h ⊢
    rcases (cs.foldl read {}).read_cases c with hend | hadds
    · rw [hend] at h
      cases h
    · obtain ⟨more, hmore⟩ := hadds.current
      exact ⟨_, hmore⟩

/-- **An argument opens with a front**, behind arguments that are complete: it is under way, or it
is complete itself, and then others may be. -/
inductive Opens (complete : List String) (front : List Char) (s : LineScan) : Prop where
  | underWay {current : List Char} (hcomplete : s.complete = complete)
      (hcurrent : s.current = some current) (hfront : front <+: current.reverse)
  | done {newer : List String} {text : String} (hcomplete : s.complete = newer ++ text :: complete)
      (hfront : front <+: text.toList)

namespace Opens

theorem endArgument (h : Opens complete front s) :
    ∃ newer text, s.endArgument.complete = newer ++ text :: complete ∧ front <+: text.toList := by
  cases h with
  | @underWay current hcomplete hcurrent hfront =>
    refine ⟨[], String.ofList (List.replicate s.slashes '\\' ++ current).reverse, ?_, ?_⟩
    · simp [LineScan.endArgument, argument?, hcurrent, hcomplete]
    · rw [String.toList_ofList, List.reverse_append]
      exact hfront.trans (List.prefix_append _ _)
  | @done newer text hcomplete hfront =>
    cases hargument : s.argument? with
    | none => exact ⟨newer, text, by simp [LineScan.endArgument, hargument, hcomplete], hfront⟩
    | some cs =>
      refine ⟨String.ofList cs.reverse :: newer, text, ?_, hfront⟩
      simp [LineScan.endArgument, hargument, hcomplete]

/-- A character leaves the front as it is. -/
theorem read (h : Opens complete front s) (c : Char) : Opens complete front (s.read c) := by
  rcases s.read_cases c with hend | hadds
  · obtain ⟨newer, text, hcomplete, hfront⟩ := h.endArgument
    rw [hend]
    exact .done hcomplete hfront
  · obtain ⟨hkept, more, hmore⟩ := hadds
    cases h with
    | underWay hcomplete hcurrent hfront =>
      rw [hcurrent, Option.getD_some] at hmore
      refine .underWay (hkept.trans hcomplete) hmore ?_
      rw [List.reverse_append]
      exact hfront.trans (List.prefix_append _ _)
    | done hcomplete hfront => exact .done (hkept.trans hcomplete) hfront

/-- **So does a line.** -/
theorem foldl_read (h : Opens complete front s) (cs : List Char) :
    Opens complete front (cs.foldl LineScan.read s) := by
  induction cs generalizing s with
  | nil => exact h
  | cons c cs ih => exact ih (h.read c)

theorem arguments (h : Opens complete front s) :
    ∃ text more, s.arguments = complete.reverse ++ text :: more ∧ front <+: text.toList := by
  obtain ⟨newer, text, hcomplete, hfront⟩ := h.endArgument
  refine ⟨text, newer.reverse, ?_, hfront⟩
  rw [LineScan.arguments, hcomplete]
  simp

end Opens

/-- **A blank inside quotes** belongs to the argument under way. -/
theorem opens_read_blank {argument : List Char} (hargument : s.argument? = some argument)
    (hinside : s.quoting = .inside) (hc : c = ' ' ∨ c = '\t') :
    Opens s.complete (argument.reverse ++ [c]) (s.read c) := by
  obtain ⟨current, hcurrent, hslashes⟩ := Option.map_eq_some_iff.1 hargument
  have hquote : c ≠ '"' := by
    rintro rfl
    exact absurd hc (by decide)
  have hslash : c ≠ '\\' := by
    rintro rfl
    exact absurd hc (by decide)
  have hread : s.read c = ⟨s.complete, some (c :: argument), 0, .inside⟩ := by
    rw [← hslashes, ← read_inside s.slashes hquote hslash, ← hcurrent, ← hinside]
  have hfront : argument.reverse ++ [c] = (c :: argument).reverse := List.reverse_cons.symm
  rw [hread, hfront]
  exact .underWay rfl rfl List.prefix_rfl

/-! ### The seam -/

variable (rest : List Char)

/-- **Behind blanks outside quotes** the rest of a line makes its own arguments. -/
theorem arguments_foldl_gap (h : s.quoting.settled = .outside) (ne : gap ≠ [])
    (hgap : Blanks gap) :
    (rest.foldl read (gap.foldl read s)).arguments =
      s.arguments ++ (rest.foldl read {}).arguments := by
  rw [foldl_read_gap h ne hgap, foldl_read_behind, arguments_behind]
  rfl

/-- **Behind blanks inside quotes** the argument under way is longer than it was. -/
theorem arguments_foldl_gap_ne {argument : List Char} (hargument : s.argument? = some argument)
    (hinside : s.quoting = .inside) (ne : gap ≠ []) (hgap : Blanks gap) (texts : List String) :
    (rest.foldl read (gap.foldl read s)).arguments ≠ s.arguments ++ texts := by
  obtain ⟨c, gap, rfl⟩ := List.exists_cons_of_ne_nil ne
  obtain ⟨hc, hgap⟩ := List.forall_mem_cons.1 hgap
  obtain ⟨text, more, harguments, hfront⟩ :=
    (((opens_read_blank hargument hinside hc).foldl_read gap).foldl_read rest).arguments
  have hbefore : s.arguments = s.complete.reverse ++ [String.ofList argument.reverse] := by
    rw [arguments, LineScan.endArgument, hargument]
    exact List.reverse_cons
  intro hsame
  rw [List.foldl_cons, harguments, hbefore, List.append_assoc] at hsame
  have htext : text = String.ofList argument.reverse :=
    List.head_eq_of_cons_eq (List.append_cancel_left hsame)
  have hlength := hfront.length_le
  rw [htext, String.toList_ofList, List.length_append, List.length_singleton] at hlength
  omega

end LineScan

/-- **Splitting at blanks.** A line, a run of blanks and another line make the arguments of the one
and then those of the other exactly if the first line ends outside quotes. -/
theorem splitCommandLine_append_iff (line gap rest : String) (ne : gap ≠ "")
    (hgap : Blanks gap.toList) :
    splitCommandLine (line ++ gap ++ rest) = splitCommandLine line ++ splitCommandLine rest ↔
      EndsOutside line := by
  have hne : gap.toList ≠ [] := fun h => ne (String.toList_eq_nil_iff.1 h)
  rw [splitCommandLine, String.toList_append, String.toList_append, List.foldl_append,
    List.foldl_append]
  constructor
  · intro hsplits
    by_cases houtside : EndsOutside line
    · exact houtside
    have hinside := Quoting.eq_inside_of_settled houtside
    obtain ⟨current, hcurrent⟩ := LineScan.exists_current_of_inside line.toList hinside
    have hargument := congrArg
      (Option.map fun cs => List.replicate (line.toList.foldl LineScan.read {}).slashes '\\' ++ cs)
      hcurrent
    exact absurd hsplits
      (LineScan.arguments_foldl_gap_ne rest.toList hargument hinside hne hgap _)
  · intro houtside
    exact LineScan.arguments_foldl_gap rest.toList houtside hne hgap

/-- A first line that ends behind closed quotes with a backslash, and a second one that starts with
a quote: the quote is not behind the backslash, so it opens quotes. -/
theorem splitCommandLine_append_iff_backslash_quote :
    let line := "a\"b c\\\\\"\\"
    let rest := "\"d e\" f"
    " \t" ≠ "" ∧ Blanks " \t".toList ∧ EndsOutside line ∧
      splitCommandLine (line ++ " \t" ++ rest) = ["ab c\\\\", "d e", "f"] := by
  intro line rest
  have ne : " \t" ≠ "" := by decide
  have hgap : Blanks " \t".toList := by simp [Blanks]
  have houtside : EndsOutside line := by decide
  refine ⟨ne, hgap, houtside, ?_⟩
  rw [(splitCommandLine_append_iff line " \t" rest ne hgap).2 houtside]
  decide +kernel

end HostAccess
