import DbClient.Command.Class
import DbClient.Command.Statement
import DbClient.Proofs.Text.Words

/-!
# The opening words of a statement

Whatever is spliced into a statement stands after its opening words. These are what
the class of a command is told by, so an argument cannot change the class that the
opening words decide.
-/

namespace DbClient

namespace CommandClass

open Text

/-- Whether text is neither trimmed at its start nor cut at its end, whatever follows
it: it begins with no white space, and ends with neither white space nor a semicolon. -/
def isOpening (p : List Char) : Bool :=
  p.head?.any (!isBlank ·) && p.getLast?.any fun c => !isBlank c && c != ';'

/-- The words of a command that begins with whole words are these, and those of what
follows them. -/
theorem wordsOf_append {command : String} {p rest : List Char}
    (h : command.toList = p ++ rest) (hp : isOpening p = true) (hrest : EndsWord rest) :
    ∃ more, wordsOf command = words p ++ more := by
  simp only [isOpening, Bool.and_eq_true, Option.any_eq_true] at hp
  obtain ⟨⟨first, hfirst, hblank⟩, last, hlast, hend⟩ := hp
  obtain ⟨init, rfl⟩ := List.getLast?_eq_some_iff.1 hlast
  simp only [Bool.not_eq_true', bne_iff_ne, ne_eq] at hblank hend
  have hstart : command.toList.dropWhile isBlank = init ++ last :: rest := by
    rw [h, List.append_assoc]
    cases init with
    | nil => simp_all
    | cons c init => simp_all
  have hsemis : dropTrailing (· == ';') (init ++ last :: dropTrailing isBlank rest) =
      init ++ last :: dropTrailing (· == ';') (dropTrailing isBlank rest) :=
    dropTrailing_append _ _ (by simpa using hend.2)
  refine ⟨words (dropTrailing (· == ';') (dropTrailing isBlank rest)), ?_⟩
  rw [wordsOf, trim, hstart, dropTrailing_append _ _ hend.1, hsemis,
    ← words_append _ hrest.dropTrailing.dropTrailing]
  simp

end CommandClass

/-- The words that a statement begins with, whatever its arguments are. -/
def Statement.opening : Statement → String
  | createDatabase _ => "CREATE DATABASE"
  | dropDatabase _ => "DROP DATABASE"
  | createTable _ _ _ => "CREATE TABLE"
  | dropTable _ _ => "DROP TABLE"
  | insert _ _ _ _ => "INSERT INTO"
  | showDatabases => "SHOW DATABASES"
  | showTables _ => "SHOW TABLES IN"
  | showBranches => "SHOW BRANCHES"
  | authenticate _ => "AUTH JWT"
  | createBranch _ => "CREATE BRANCH"
  | checkout _ => "CHECKOUT"
  | merge _ => "MERGE"
  | mergeManual _ => "MERGE"
  | showConflicts => "SHOW MERGE CONFLICTS"
  | resolve _ _ => "RESOLVE CONFLICT"
  | commitMerge => "COMMIT MERGE"
  | abortMerge => "ABORT MERGE"

/-- The keywords among the opening words. -/
def Statement.openingKeywords : Statement → List Keyword
  | createDatabase _ => [.create, .database]
  | dropDatabase _ => [.drop, .database]
  | createTable _ _ _ => [.create, .table]
  | dropTable _ _ => [.drop, .table]
  | insert _ _ _ _ => [.other, .other]
  | showDatabases => [.show_, .other]
  | showTables _ => [.show_, .other, .other]
  | showBranches => [.show_, .other]
  | authenticate _ => [.other, .other]
  | createBranch _ => [.create, .other]
  | checkout _ => [.checkout]
  | merge _ => [.merge]
  | mergeManual _ => [.merge]
  | showConflicts => [.show_, .merge, .other]
  | resolve _ _ => [.resolve, .conflict]
  | commitMerge => [.commit, .merge]
  | abortMerge => [.abort, .merge]

namespace Statement

private theorem toList_append_space {lead opening : String} (h : lead = opening ++ " ")
    (args : String) :
    ∃ rest, (lead ++ args).toList = opening.toList ++ rest ∧ Text.EndsWord rest := by
  refine ⟨' ' :: args.toList, ?_, .inr ⟨' ', args.toList, rfl, rfl⟩⟩
  rw [h, String.toList_append, String.toList_append, List.append_assoc]
  rfl

/-- A statement is its opening words, and arguments that do not run into them. -/
theorem toList_text (s : Statement) :
    ∃ rest, s.text.toList = s.opening.toList ++ rest ∧ Text.EndsWord rest := by
  unfold text opening
  cases s with
  | showDatabases | showBranches | showConflicts | commitMerge | abortMerge =>
    exact ⟨[], (List.append_nil _).symm, .inl rfl⟩
  | _ =>
    simp only [String.append_assoc]
    exact toList_append_space (by decide) _

theorem isOpening_opening (s : Statement) : CommandClass.isOpening s.opening.toList = true := by
  cases s <;> simp [opening, CommandClass.isOpening, Text.isBlank]

theorem keywords_opening (s : Statement) :
    (Text.words s.opening.toList).map Keyword.ofWord = s.openingKeywords := by
  cases s <;> simp only [opening, openingKeywords] <;> decide +kernel

/-- The keywords that decide the class of a statement. -/
theorem keywords_text (s : Statement) :
    ∃ more, (CommandClass.wordsOf s.text).map Keyword.ofWord = s.openingKeywords ++ more := by
  obtain ⟨rest, htext, hrest⟩ := s.toList_text
  obtain ⟨more, hwords⟩ := CommandClass.wordsOf_append htext s.isOpening_opening hrest
  exact ⟨more.map Keyword.ofWord, by rw [hwords, List.map_append, keywords_opening]⟩

/-- Only the statement that aborts a merge is taken for one. -/
theorem class_text_ne_abortMerge {s : Statement} (h : s ≠ .abortMerge) :
    CommandClass.of s.text ≠ .abortMerge := by
  obtain ⟨more, hmore⟩ := s.keywords_text
  rw [CommandClass.of, hmore]
  cases s with
  | abortMerge => exact absurd rfl h
  | merge | mergeManual =>
    -- whether the merge is a manual one is told by the words that follow
    simp only [openingKeywords, List.singleton_append]
    unfold CommandClass.ofKeywords
    split <;> simp_all
  | _ => simp [openingKeywords, CommandClass.ofKeywords]

/-- A login is no command of the merge family. -/
theorem class_text_authenticate (token : String) :
    CommandClass.of (authenticate token).text = .other := by
  obtain ⟨more, hmore⟩ := (authenticate token).keywords_text
  rw [CommandClass.of, hmore]
  simp [openingKeywords, CommandClass.ofKeywords]

end Statement
end DbClient
