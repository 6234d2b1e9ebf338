import DbClient.Text.Blank

/-!
# Classes of commands

The client looks at the first words of a command only to follow the server's merge
state. The class is a function of the command's words, read without regard to ASCII
case, after white space around the command and semicolons at its end are dropped.
-/

namespace DbClient

/-- The words that matter for the class of a command; `other` stands for the rest. -/
inductive Keyword where
  | merge
  | with_
  | manual
  | resolution
  | commit
  | abort
  | resolve
  | conflict
  | show_
  | checkout
  | create
  | drop
  | alter
  | database
  | table
  | other
  deriving DecidableEq, Repr

/-- The keywords by their upper-case spellings. -/
def Keyword.spellings : List (String × Keyword) := [
  ("MERGE", .merge), ("WITH", .with_), ("MANUAL", .manual), ("RESOLUTION", .resolution),
  ("COMMIT", .commit), ("ABORT", .abort), ("RESOLVE", .resolve), ("CONFLICT", .conflict),
  ("SHOW", .show_), ("CHECKOUT", .checkout), ("CREATE", .create), ("DROP", .drop),
  ("ALTER", .alter), ("DATABASE", .database), ("TABLE", .table)]

/-- The keyword that a word spells, its ASCII letters in either case. -/
def Keyword.ofWord (word : List Char) : Keyword :=
  (spellings.lookup (String.ofList (word.map Char.toUpper))).getD .other

/-- What a command is, as far as merges are concerned. -/
inductive CommandClass where
  | merge
  | manualMerge
  | commitMerge
  | abortMerge
  | resolveConflict
  | showConflicts
  | checkout
  | schemaChange
  | other
  deriving DecidableEq, Repr

namespace CommandClass

def name : CommandClass → String
  | .merge => "Merge"
  | .manualMerge => "ManualMerge"
  | .commitMerge => "CommitMerge"
  | .abortMerge => "AbortMerge"
  | .resolveConflict => "ResolveConflict"
  | .showConflicts => "ShowConflicts"
  | .checkout => "Checkout"
  | .schemaChange => "SchemaChange"
  | .other => "Other"

/-- The class of a command with these words. -/
def ofKeywords : List Keyword → CommandClass
  | [.merge, _, .with_, .manual, .resolution] => .manualMerge
  | .merge :: _ => .merge
  | .commit :: .merge :: _ => .commitMerge
  | .abort :: .merge :: _ => .abortMerge
  | .resolve :: .conflict :: _ => .resolveConflict
  | .show_ :: .merge :: _ => .showConflicts
  | .checkout :: _ => .checkout
  | .create :: .database :: _ => .schemaChange
  | .create :: .table :: _ => .schemaChange
  | .drop :: .database :: _ => .schemaChange
  | .drop :: .table :: _ => .schemaChange
  | .alter :: .table :: _ => .schemaChange
  | _ => .other

/-- The words of a command. -/
def wordsOf (command : String) : List (List Char) :=
  Text.words (Text.dropTrailing (· == ';') (Text.trim command.toList))

/-- The class of a command. -/
def of (command : String) : CommandClass :=
  ofKeywords ((wordsOf command).map Keyword.ofWord)

end CommandClass
end DbClient
