import HostAccess.Proofs.Process.ArgumentRoundTrip

/-!
# Empty arguments let the environment into the command line

The count in front of an argument area counts empty arguments too, but the pass takes them
for padding. So it goes on for as many fields as it has passed over, and these are the first
entries of the environment: a process started with an empty argument shows an entry, which
may be a secret, among its arguments, and misses it in its environment.

`HostAccess.ProcessArguments.arguments_sublist_iff` says what is read and when it is right:
exactly if no argument is empty or there are no entries. The smallest process of another kind
is one that was told to run an empty command
(`HostAccess.ProcessArguments.not_sublist_of_empty_command`).
-/

namespace HostAccess

namespace ProcessArguments

variable {path : String} {arguments entries : List String}

/-- The arguments that are not empty are as many as a part of the arguments without empty ones
can have, so no entry fits in behind them. -/
theorem append_take_sublist_iff (hentries : ∀ e ∈ entries, e ≠ "") :
    (arguments.filter (· ≠ "") ++ entries.take (arguments.count "")).Sublist arguments ↔
      "" ∉ arguments ∨ entries = [] := by
  constructor
  · intro h
    have hfilled : ∀ s ∈ arguments.filter (· ≠ "") ++ entries.take (arguments.count ""),
        decide (s ≠ "") = true := by
      intro s hs
      rcases List.mem_append.1 hs with hs | hs
      · exact (List.mem_filter.1 hs).2
      · exact decide_eq_true (hentries s (List.mem_of_mem_take hs))
    have hlength := (h.filter (· ≠ "")).length_le
    rw [List.filter_eq_self.2 hfilled, List.length_append, List.length_take] at hlength
    by_cases hempty : "" ∈ arguments
    · have hpos : 0 < arguments.count "" := List.count_pos_iff.2 hempty
      exact Or.inr (List.length_eq_zero_iff.1 (by omega))
    · exact Or.inl hempty
  · rintro (hempty | rfl)
    · rw [List.count_eq_zero.2 hempty, List.take_zero, List.append_nil]
      exact List.filter_sublist
    · rw [List.take_nil, List.append_nil]
      exact List.filter_sublist

/-- **When the environment stays out of the arguments.** Whatever a process was started with,
something is read: its arguments without the empty ones, and behind them as many entries as
there were empty ones, which are then missing in the environment. What is found are arguments
of the process exactly if none was empty or there are no entries; and if none was empty, it
is all of them. -/
theorem arguments_sublist_iff (hpath : ZeroFree path) (harguments : ∀ a ∈ arguments, ZeroFree a)
    (hcount : arguments.length ≤ 2 ^ 31 - 1) (hentries : ∀ e ∈ entries, e ≠ "" ∧ ZeroFree e)
    (padding gap : Nat) :
    ∃ a, decode (ArgumentArea.write path arguments entries padding gap []) = .ok a ∧
      a.execPath = (if path = "" then none else some path) ∧
      a.arguments = arguments.filter (· ≠ "") ++ entries.take (arguments.count "") ∧
      a.environment = .ofEntries (entries.drop (arguments.count "")) ∧
      (a.arguments.Sublist arguments ↔ "" ∉ arguments ∨ entries = []) ∧
      ("" ∉ arguments → a.arguments = arguments) := by
  refine ⟨_, decode_write_shifted hpath harguments hcount hentries fun _ => rfl, rfl, rfl, rfl,
    append_take_sublist_iff fun e he => (hentries e he).1, fun hempty => ?_⟩
  rw [filter_ne_empty fun a ha h => hempty (h ▸ ha), List.count_eq_zero.2 hempty,
    List.take_zero, List.append_nil]

/-- Two empty arguments and one entry: the entry is read as an argument. -/
theorem arguments_sublist_iff_two_empty :
    let path := "/bin/é"
    let arguments := ["", "a", ""]
    let entries := ["K=1"]
    ZeroFree path ∧ (∀ a ∈ arguments, ZeroFree a) ∧ arguments.length ≤ 2 ^ 31 - 1 ∧
      (∀ e ∈ entries, e ≠ "" ∧ ZeroFree e) ∧
      ∃ a, decode (ArgumentArea.write path arguments entries 3 0 []) = .ok a ∧
        a.arguments = ["a", "K=1"] ∧ a.environment = .empty ∧
        ¬a.arguments.Sublist arguments := by
  intro path arguments entries
  have hpath : ZeroFree path := by decide
  have harguments : ∀ a ∈ arguments, ZeroFree a := by decide
  have hcount : arguments.length ≤ 2 ^ 31 - 1 := by decide
  have hentries : ∀ e ∈ entries, e ≠ "" ∧ ZeroFree e := by decide
  obtain ⟨a, hdecode, -, hread, hmap, hiff, -⟩ :=
    arguments_sublist_iff hpath harguments hcount hentries 3 0
  exact ⟨hpath, harguments, hcount, hentries, a, hdecode, hread, hmap,
    fun h => absurd (hiff.1 h) (by decide)⟩

/-- A process that runs an empty command shows an entry of its environment instead. -/
theorem not_sublist_of_empty_command :
    let path := "/bin/sh"
    let arguments := ["sh", "-c", ""]
    let entries := ["TOKEN=hunter2"]
    ZeroFree path ∧ (∀ a ∈ arguments, ZeroFree a) ∧ arguments.length ≤ 2 ^ 31 - 1 ∧
      (∀ e ∈ entries, e ≠ "" ∧ ZeroFree e) ∧
      ∃ a, decode (ArgumentArea.write path arguments entries 0 0 []) = .ok a ∧
        ¬a.arguments.Sublist arguments ∧
        "TOKEN=hunter2" ∈ a.arguments ∧ "TOKEN=hunter2" ∉ arguments ∧
        a.commandLine = "sh -c TOKEN=hunter2" ∧ a.environment.get? "TOKEN" = none := by
  intro path arguments entries
  have hpath : ZeroFree path := by decide
  have harguments : ∀ a ∈ arguments, ZeroFree a := by decide
  have hcount : arguments.length ≤ 2 ^ 31 - 1 := by decide
  have hentries : ∀ e ∈ entries, e ≠ "" ∧ ZeroFree e := by decide
  refine ⟨hpath, harguments, hcount, hentries, _,
    decode_write_shifted hpath harguments hcount hentries fun _ => rfl, ?_⟩
  decide

end ProcessArguments

end HostAccess
