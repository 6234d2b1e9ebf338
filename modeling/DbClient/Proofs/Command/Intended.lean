import DbClient.Proofs.Command.Opening
import DbClient.Proofs.Command.Separators

/-!
# Classes of statements

Arguments are put into a statement as they are, and the class of a command is told from its
text again. A statement is nevertheless of the class that it is written for. Its opening words
decide that, except where a branch is merged: there the number of words counts, and the name of
the branch is checked to be one.
-/

namespace DbClient

/-- A name is accepted if it is not empty, and nothing in it ends a word. -/
theorem checkOneWord_eq_ok_iff {what name : String} :
    checkOneWord what name = .ok () ↔
      name.toList ≠ [] ∧ ∀ c ∈ name.toList, Text.isSeparator c = false := by
  have hone : (name.isEmpty || name.toList.any fun c => Text.isBlank c || c == ';') = true ↔
      ¬(name.toList ≠ [] ∧ ∀ c ∈ name.toList, Text.isSeparator c = false) := by
    simp [Text.isSeparator, String.isEmpty_iff, Classical.or_iff_not_imp_left]
  rw [checkOneWord]
  split
  · simp_all
  · simp_all

namespace Statement

/-- The class that a statement is written for. -/
def intendedClass : Statement → CommandClass
  | createDatabase _ | dropDatabase _ | createTable _ _ _ | dropTable _ _ => .schemaChange
  | insert _ _ _ _ | showDatabases | showTables _ | showBranches | authenticate _
  | createBranch _ => .other
  | checkout _ => .checkout
  | merge _ => .merge
  | mergeManual _ => .manualMerge
  | showConflicts => .showConflicts
  | resolve _ _ => .resolveConflict
  | commitMerge => .commitMerge
  | abortMerge => .abortMerge

/-- The branch that a statement names, if it names one. -/
def branch? : Statement → Option String
  | createBranch name | checkout name => some name
  | merge branch | mergeManual branch => some branch
  | _ => none

/-- Whether the branch that a statement names, if any, has a name that is accepted. -/
def BranchAccepted (s : Statement) : Prop :=
  ∀ name ∈ s.branch?, checkOneWord "branch name" name = .ok ()

/-! ## Merges -/

private theorem toList_merge_space : "MERGE ".toList = "MERGE".toList ++ [' '] := by
  decide +kernel

section Merge

variable {branch : String} (h : checkOneWord "branch name" branch = .ok ())

include h

/-- The keywords of a merge are those of its branch and of what stands behind it. -/
theorem keywordsOf_merging {command : String} {rest : List Char}
    (hcommand : command.toList = "MERGE".toList ++ ' ' :: (branch.toList ++ rest))
    (hend : Text.withoutEnd command.toList = command.toList) (hrest : Text.EndsWord rest) :
    CommandClass.keywordsOf command =
      .merge :: Keyword.ofWord branch.toList :: (Text.words rest).map Keyword.ofWord := by
  obtain ⟨hne, hone⟩ := checkOneWord_eq_ok_iff.1 h
  have hblank : ∀ c ∈ branch.toList, Text.isBlank c = false := by
    intro c hc
    exact (Bool.or_eq_false_iff.1 (hone c hc)).1
  have hopening : (Text.words "MERGE".toList).map Keyword.ofWord = [.merge] := by decide +kernel
  rw [CommandClass.keywordsOf, CommandClass.wordsOf_eq_words_withoutEnd, hend, hcommand,
    Text.words_spliced _ hne hblank hrest, List.map_append, hopening]
  rfl

theorem class_text_merge : CommandClass.of (merge branch).text = .merge := by
  obtain ⟨hne, hone⟩ := checkOneWord_eq_ok_iff.1 h
  have htext : (merge branch).text.toList = "MERGE ".toList ++ branch.toList :=
    String.toList_append
  -- the text ends with the name, which is a word
  have hend : Text.withoutEnd (merge branch).text.toList = (merge branch).text.toList := by
    rw [htext, Text.withoutEnd_append_word _ hne hone]
  have hsplit : (merge branch).text.toList = "MERGE".toList ++ ' ' :: (branch.toList ++ []) := by
    rw [htext, toList_merge_space, List.append_assoc, List.append_nil]
    rfl
  rw [CommandClass.of_eq, keywordsOf_merging h hsplit hend (.inl rfl)]
  rfl

theorem class_text_mergeManual : CommandClass.of (mergeManual branch).text = .manualMerge := by
  have htext : (mergeManual branch).text.toList =
      "MERGE ".toList ++ branch.toList ++ " WITH MANUAL RESOLUTION".toList := by
    rw [← String.toList_append, ← String.toList_append]
    rfl
  -- the text ends with a word of the statement itself, and so nothing is dropped there
  have hlast : " WITH MANUAL RESOLUTION" = " WITH MANUAL " ++ "RESOLUTION" := by decide
  have hword : ∀ c ∈ "RESOLUTION".toList, Text.isSeparator c = false := by
    simp [Text.isSeparator, Text.isBlank]
  have hend : Text.withoutEnd (mergeManual branch).text.toList =
      (mergeManual branch).text.toList := by
    rw [htext, hlast, String.toList_append, ← List.append_assoc]
    exact Text.withoutEnd_append_word _ (by decide +kernel) hword
  have hsplit : (mergeManual branch).text.toList =
      "MERGE".toList ++ ' ' :: (branch.toList ++ " WITH MANUAL RESOLUTION".toList) := by
    rw [htext, toList_merge_space, List.append_assoc, List.append_assoc]
    rfl
  have hrest : (Text.words " WITH MANUAL RESOLUTION".toList).map Keyword.ofWord =
      [.with_, .manual, .resolution] := by decide +kernel
  have hends : Text.EndsWord " WITH MANUAL RESOLUTION".toList :=
    .inr ⟨' ', "WITH MANUAL RESOLUTION".toList, by decide +kernel, rfl⟩
  rw [CommandClass.of_eq, keywordsOf_merging h hsplit hend hends, hrest]
  rfl

end Merge

/-! ## All statements -/

/-- A statement is of the class that it is written for. -/
theorem class_text {s : Statement} (h : s.BranchAccepted) :
    CommandClass.of s.text = s.intendedClass := by
  cases s with
  | merge branch => exact class_text_merge (h branch rfl)
  | mergeManual branch => exact class_text_mergeManual (h branch rfl)
  | _ =>
    -- the opening words decide, whatever follows them
    obtain ⟨more, hmore⟩ := keywords_text _
    rw [CommandClass.of, hmore]
    rfl

/-- A statement that names a branch is one line. -/
theorem newline_notMem_text {s : Statement} (h : s.BranchAccepted) {name : String}
    (hname : name ∈ s.branch?) : '\n' ∉ s.text.toList := by
  have hone := (checkOneWord_eq_ok_iff.1 (h name hname)).2
  have hmem : '\n' ∉ name.toList := fun hc => absurd (hone _ hc) (by decide)
  have hnone : ∀ lead tail : String, '\n' ∉ lead.toList → '\n' ∉ tail.toList →
      '\n' ∉ (lead ++ name ++ tail).toList := by
    intro lead tail hlead htail
    simp [hlead, hmem, htail]
  cases s with
  | createBranch | checkout | merge =>
    cases hname
    rw [← String.append_empty (s := text _)]
    exact hnone _ _ (by decide) (by decide)
  | mergeManual =>
    cases hname
    exact hnone _ _ (by decide) (by decide)
  | _ => cases hname

end Statement

end DbClient
