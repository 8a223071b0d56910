import HostAccess.Proofs.Process.ProcTree
import HostAccess.Proofs.Text.Words

/-!
# The parent behind any name

The file `stat` of a process is one line: its number, its name between parentheses, and then
fields between blanks, of which the second is the number of its parent. The name is written as
it is, so it may look like the end of a line of its own: `evil) S 1`. Only the fields behind it
are under the kernel's control (`HostAccess.StatFields`), and there is no closing parenthesis
in them. So the last one in the line is the one that ends the name, and what is read behind it
is what the kernel wrote there.

* `HostAccess.afterName?_append_of_not_mem`: what follows the last closing parenthesis;
* `HostAccess.statParent?_append_fields`: the parent that is read, and that a listing tells.
-/

namespace HostAccess

/-- **The fields behind the name**: a state, the number of the parent and anything more, with
blanks between them. -/
structure StatFields where
  beforeState : String
  state : String
  beforeParent : String
  parent : Pid
  /-- The fields after the parent, with the blanks in front of them. -/
  tail : String
  blanks_beforeState : Text.Blanks beforeState.toList
  isWord_state : Text.IsWord state.toList
  paren_not_mem_state : ')' ∉ state.toList
  blanks_beforeParent : Text.Blanks beforeParent.toList
  beforeParent_ne_empty : beforeParent ≠ ""
  endsWord_tail : Text.EndsWord tail.toList
  paren_not_mem_tail : ')' ∉ tail.toList

/-- The fields as they stand in the line. -/
def StatFields.text (fields : StatFields) : String :=
  fields.beforeState ++ fields.state ++ fields.beforeParent ++ toString fields.parent.toInt ++
    fields.tail

/-! ### The end of the name -/

theorem afterName?_eq_none {cs : List Char} (h : ')' ∉ cs) : afterName? cs = none := by
  induction cs with
  | nil => rfl
  | cons c cs ih =>
    rw [List.mem_cons, not_or] at h
    rw [afterName?, ih h.2]
    exact if_neg (Ne.symm h.1)

/-- The last closing parenthesis is one with none behind it. -/
theorem afterName?_append_of_not_mem (front : List Char) {back : List Char} (h : ')' ∉ back) :
    afterName? (front ++ ')' :: back) = some back := by
  rw [afterName?_append_cons, afterName?_eq_none h, Option.getD_none]

namespace StatFields

/-! ### The fields -/

variable (fields : StatFields)

theorem toList_text : fields.text.toList = fields.beforeState.toList ++
    (fields.state.toList ++ (fields.beforeParent.toList ++
      ((toString fields.parent.toInt).toList ++ fields.tail.toList))) := by
  simp [text]

/-- No field has a closing parenthesis. -/
theorem paren_not_mem : ')' ∉ fields.text.toList := by
  have hblank : Text.isBlank ')' = false := by decide
  have hparent : ')' ∉ (toString fields.parent.toInt).toList := by
    intro hmem
    rcases Decimal.eq_minus_or_isDigit hmem with h | h
    · exact absurd h (by decide)
    · exact absurd h (by decide)
  rw [toList_text]
  simp only [List.mem_append, not_or]
  exact ⟨fields.blanks_beforeState.not_mem hblank, fields.paren_not_mem_state,
    fields.blanks_beforeParent.not_mem hblank, hparent, fields.paren_not_mem_tail⟩

/-- The first two words are the state and the parent. -/
theorem wordsOf_text : Text.wordsOf fields.text.toList = fields.state.toList ::
    (toString fields.parent.toInt).toList :: Text.wordsOf fields.tail.toList := by
  have hgap : fields.beforeParent.toList ≠ [] :=
    mt String.toList_eq_nil_iff.1 fields.beforeParent_ne_empty
  rw [toList_text, Text.wordsOf_blanks_append fields.blanks_beforeState,
    Text.wordsOf_word_append fields.isWord_state (fields.blanks_beforeParent.endsWord_append hgap),
    Text.wordsOf_blanks_append fields.blanks_beforeParent,
    Text.wordsOf_word_append (Text.isWord_toString _) fields.endsWord_tail]

end StatFields

/-- **The parent is read behind any name**, whatever the name holds and whatever stands in front
of it. So a listing tells the parent that the kernel wrote, whatever the process calls itself. -/
theorem statParent?_append_fields (fields : StatFields) (front name : String) :
    statParent? (front ++ "(" ++ name ++ ")" ++ fields.text) = some fields.parent ∧
    ∀ (log : Logger) (pid : Pid) (entry : ProcEntry),
      ProcTree.descriptor? log (ProcTree.nameOfPid pid,
          { entry with stat := .ok (ProcEntry.statFile front (Utf8.encode name) fields.text) }) =
        some { pid, ppid := some fields.parent, log } := by
  have hparent : statParent? (front ++ "(" ++ name ++ ")" ++ fields.text) =
      some fields.parent := by
    have hline : (front ++ "(" ++ name ++ ")" ++ fields.text).toList =
        (front ++ "(" ++ name).toList ++ ')' :: fields.text.toList := by simp
    rw [statParent?, hline, afterName?_append_of_not_mem _ fields.paren_not_mem,
      Option.bind_some, fields.wordsOf_text]
    simp only [String.ofList_toList, Decimal.int32?_toString]
  refine ⟨hparent, fun log pid entry => ?_⟩
  rw [ProcTree.descriptor?, ProcTree.pidOfName?_nameOfPid, Option.bind_some,
    ProcEntry.statText_of_encode rfl, Except.toOption, Option.map_some, hparent]

/-- A name that looks like fields of its own, with a line break and a parenthesis at its end;
behind it a tab, a line break and an ideographic space, and a parent below zero. -/
theorem statParent?_append_fields_false_fields :
    ∃ fields : StatFields, fields.text = "\tD\n\u3000-7 12 0\n" ∧ fields.parent = -7 ∧
      statParent? ("12 " ++ "(" ++ "a) S 1 1\n12 (b)" ++ ")" ++ fields.text) = some (-7) := by
  let fields : StatFields := {
    beforeState := "\t"
    state := "D"
    beforeParent := "\n\u3000"
    parent := -7
    tail := " 12 0\n"
    blanks_beforeState := by decide
    isWord_state := by decide
    paren_not_mem_state := by decide
    blanks_beforeParent := by decide
    beforeParent_ne_empty := by decide
    endsWord_tail := by decide
    paren_not_mem_tail := by decide }
  exact ⟨fields, by decide, rfl, (statParent?_append_fields fields "12 " "a) S 1 1\n12 (b)").1⟩

end HostAccess
