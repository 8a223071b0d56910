import HostAccess.Proofs.Process.EnvironmentForms
import Mathlib.Data.List.Basic

/-!
# Which arguments a file can tell

A file of arguments has a zero byte after each of them. An empty argument is two zero bytes in
a row, or one at the start, and none of them is lost on the way back: the file is cut at every
zero byte, after the last one was taken away. That one may be missing, as in a file that a
process has written itself, and then the last argument ends with the file.

| arguments | file | read as |
|---|---|---|
| none | no bytes | none |
| one, and it is empty | one zero byte | none |
| any others | at least one byte that is not the last zero byte | the arguments |

So one pair of lists cannot be told apart, and it is the only one:
`HostAccess.ProcessArguments.arguments_ofFiles_eq_iff`.
-/

namespace HostAccess

/-- **A file of texts**: a zero byte after each, of which the last one may be missing behind a
text that is not empty. -/
inductive FileOf : List String → Bytes → Prop
  | closed (texts : List String) : FileOf texts (terminated texts)
  | unclosed {last : String} (front : List String) (h : last ≠ "") :
      FileOf (front ++ [last]) (terminated front ++ Utf8.encode last)

variable {texts : List String} {data : Bytes}

/-- Without the last zero byte a file is read in the same way. -/
theorem zeroFields_unclosed {front : List String} {last : String}
    (h : ∀ s ∈ front ++ [last], ZeroFree s) (hlast : last ≠ "") :
    zeroFields (terminated front ++ Utf8.encode last) = front ++ [last] := by
  have hne : Utf8.encode last ≠ [] := fun hnil => hlast (Utf8.encode_eq_nil.1 hnil)
  have hend : (terminated front ++ Utf8.encode last).getLast? ≠ some 0 := by
    rw [List.getLast?_append_of_ne_nil _ hne]
    intro hzero
    exact Utf8.zero_not_mem_encode (h last (by simp)) (List.mem_of_getLast? hzero)
  have hbody : ¬(terminated front ++ Utf8.encode last).isEmpty = true := by
    intro hempty
    exact hlast (terminated_append_encode_eq_nil.1 (List.isEmpty_iff.1 hempty)).2
  unfold zeroFields
  rw [if_neg hend]
  simp only [if_neg hbody, splitOn_terminated_encode h, map_decodeLossy_encode]

/-- **What a file of texts is read as**: the texts, unless there is one and it is empty. -/
theorem FileOf.zeroFields_eq (hfile : FileOf texts data) (h : ∀ s ∈ texts, ZeroFree s) :
    zeroFields data = if texts = [""] then [] else texts := by
  cases hfile with
  | closed =>
    split
    · next hempty => rw [hempty]; rfl
    · next hne => exact zeroFields_terminated h hne
  | @unclosed last front hlast =>
    have hne : front ++ [last] ≠ [""] := by
      intro heq
      have hmem : last ∈ [""] := heq ▸ List.mem_append_right front (List.mem_singleton_self last)
      exact hlast (List.mem_singleton.1 hmem)
    rw [if_neg hne, zeroFields_unclosed h hlast]

namespace ProcessArguments

/-- **A file tells its arguments**, in order and with the empty ones among them, unless there is
one and it is empty. Hence the files of different lists are read differently, whether they are
closed or not, except that one empty argument is read as none. -/
theorem arguments_ofFiles_eq_iff (h : ∀ s ∈ texts, ZeroFree s) (hfile : FileOf texts data)
    (execPath : Option String) (environ : Bytes) :
    (texts ≠ [""] → (ofFiles execPath data environ).arguments = texts) ∧
    ∀ others otherData, (∀ s ∈ others, ZeroFree s) → FileOf others otherData →
      ∀ otherPath otherEnviron,
        ((ofFiles execPath data environ).arguments =
            (ofFiles otherPath otherData otherEnviron).arguments ↔
          texts = others ∨ texts = [] ∧ others = [""] ∨ texts = [""] ∧ others = []) := by
  have hread : (ofFiles execPath data environ).arguments = if texts = [""] then [] else texts :=
    hfile.zeroFields_eq h
  refine ⟨fun hne => hread.trans (if_neg hne), ?_⟩
  intro others otherData hothers hother otherPath otherEnviron
  have hreadOther : (ofFiles otherPath otherData otherEnviron).arguments =
      if others = [""] then [] else others := hother.zeroFields_eq hothers
  rw [hread, hreadOther]
  by_cases hone : texts = [""] <;> by_cases htwo : others = [""]
  · simp [hone, htwo]
  · simp [hone, htwo, eq_comm]
  · simp [hone, htwo]
  · simp [hone, htwo]

/-- Empty arguments in front, in a row and at the end. Without the zero byte after the last
argument the same bytes tell one argument less. -/
theorem arguments_ofFiles_eq_iff_empty_ones :
    let texts := ["", "ls", "", "", "é", ""]
    let front := ["", "ls", "", ""]
    (∀ s ∈ texts, ZeroFree s) ∧ FileOf texts (terminated texts) ∧
      (ofFiles none (terminated texts) []).arguments = texts ∧
      (∀ s ∈ front ++ ["é"], ZeroFree s) ∧
      FileOf (front ++ ["é"]) (terminated front ++ Utf8.encode "é") ∧
      (ofFiles none (terminated front ++ Utf8.encode "é") []).arguments = front ++ ["é"] ∧
      (ofFiles none (terminated texts) []).arguments ≠
        (ofFiles none (terminated front ++ Utf8.encode "é") []).arguments := by
  intro texts front
  have htexts : ∀ s ∈ texts, ZeroFree s := by decide
  have hfront : ∀ s ∈ front ++ ["é"], ZeroFree s := by decide
  have hclosed : FileOf texts (terminated texts) := .closed texts
  have hunclosed : FileOf (front ++ ["é"]) (terminated front ++ Utf8.encode "é") :=
    .unclosed front (by decide)
  obtain ⟨hread, hapart⟩ := arguments_ofFiles_eq_iff htexts hclosed none []
  obtain ⟨hreadFront, -⟩ := arguments_ofFiles_eq_iff hfront hunclosed none []
  refine ⟨htexts, hclosed, hread (by decide), hfront, hunclosed, hreadFront (by decide), ?_⟩
  intro heq
  exact absurd ((hapart _ _ hfront hunclosed none []).1 heq) (by decide)

end ProcessArguments

end HostAccess
