import DbClient.Proofs.Command.Intended
import DbClient.Proofs.Merge.Listed
import DbClient.Proofs.Session.Abort
import DbClient.Proofs.Session.Reports
import DbClient.Proofs.Session.Teardown

/-!
# Manual merges

The answer of a manual merge is made of the typed result after the merge state has followed it,
and it may fail where the result has not: rows may be listed without the columns of a conflict's
path. Then the merge is open all the same. In every other case the answer tells the state.
-/

namespace DbClient

open MergeConflict (IsListed missingColumn? ofListing ofListing_eq_ok_iff ofListing_of_missing
  exists_ofListing_of_complete)

variable {τ : Type} [Transport τ]

namespace Client

variable {c : Client τ} {command : String} {r : ExecuteResult}

/-! ## Replies as typed results -/

/-- A command gets a reply line that is read as a typed result. -/
def Replied (c : Client τ) (command : String) (r : ExecuteResult) : Prop :=
  ∃ line, c.replyLine? command = some line ∧ readResult command line = .ok r

theorem replied_iff : c.Replied command r ↔ (execute command c).1 = .ok r := by
  cases hreply : c.replyLine? command with
  | none =>
    obtain ⟨e, hexecute, -, -⟩ := outcomes_of_no_reply hreply
    simp [Replied, hreply, hexecute]
  | some line => simp [Replied, hreply, (outcomes_of_reply hreply).1]

/-- What is executed on a client that stays open is followed by the merge state. -/
theorem merge_execute_of_open (hadmitted : c.refusal? command = none)
    (hopen : (execute command c).2.session.isOpen = true) :
    (execute command c).2.session.merge =
      c.session.merge.after (.of command) (.of (execute command c).1) := by
  have hexecuted := execute_executed command c
  generalize execute command c = reply at hexecuted hopen ⊢
  cases hexecuted with
  | refused hr =>
    rw [hadmitted] at hr
    cases hr
  | unframed => rfl
  | lost _ _ hclosed =>
    rw [hopen] at hclosed
    cases hclosed
  | answered _ hx =>
    obtain ⟨-, -, hmerge⟩ := notMem_of_exchange_ok hx
    rw [merge_track, hmerge]

/-- A client that is closed by a command has no merge open. -/
theorem merge_execute_of_closed (hadmitted : c.refusal? command = none)
    (hclosed : (execute command c).2.session.isOpen = false) :
    (execute command c).2.session.merge = .clean := by
  have hexecuted := execute_executed command c
  generalize execute command c = reply at hexecuted hclosed ⊢
  cases hexecuted with
  | refused hr =>
    rw [hadmitted] at hr
    cases hr
  | unframed =>
    rw [isOpen_track, isOpen_of_admitted hadmitted] at hclosed
    cases hclosed
  | lost _ _ _ hclean => exact hclean
  | answered _ hx =>
    rw [isOpen_track, (notMem_of_exchange_ok hx).2.1] at hclosed
    cases hclosed

/-! ## The end of a merge -/

theorem commitMerge_snd (c : Client τ) :
    (commitMerge c).2 = (execute Statement.commitMerge.text c).2 := by
  have hperform : (TypedCall.mutation Statement.commitMerge.text).perform c =
      (executeMutation Statement.commitMerge.text >>= fun r => pure (.result (.commit r))) c :=
    congrFun TypedCall.perform_mutation c
  rw [Call.map_apply] at hperform
  exact (congrArg Prod.snd hperform).symm

section Ended

variable (hopen : c.session.isOpen = true)

include hopen

theorem merge_abortMerge : (abortMerge c).2.session.merge = .clean := by
  have habort : CommandClass.of Statement.abortMerge.text = .abortMerge := by decide +kernel
  have hadmitted : c.refusal? Statement.abortMerge.text = none :=
    admitted_of_not_forbids hopen (not_forbids_of_unguarded (by rw [habort]; rfl) c)
  rw [abortMerge, Call.map_apply]
  exact merge_execute_of_abort habort hadmitted

/-- A commit ends the open merge if it is replied to with a result, of either kind, or if the
connection is lost. -/
theorem merge_commitMerge_eq_clean_iff (hpending : c.session.merge = .pending) :
    (commitMerge c).2.session.merge = .clean ↔
      (∃ r, c.Replied Statement.commitMerge.text r) ∨
        (commitMerge c).2.session.isOpen = false := by
  have hcommit : CommandClass.of Statement.commitMerge.text = .commitMerge := by decide +kernel
  have hadmitted : c.refusal? Statement.commitMerge.text = none :=
    admitted_of_not_forbids hopen (not_forbids_of_unguarded (by rw [hcommit]; rfl) c)
  simp only [commitMerge_snd, replied_iff]
  cases hstill : (execute Statement.commitMerge.text c).2.session.isOpen with
  | false => simp [merge_execute_of_closed hadmitted hstill]
  | true =>
    rw [merge_execute_of_open hadmitted hstill, hcommit, hpending]
    rcases (execute Statement.commitMerge.text c).1 with e | r
    · simp [Reply.of, MergeState.after]
    · cases r <;> simp [Reply.of, MergeState.after]

end Ended

/-! ## The answer -/

/-- A manual merge is the execution of its statement, and the answer is made of the result. -/
theorem mergeManual_apply {branch : String}
    (hbranch : checkOneWord "branch name" branch = .ok ()) (c : Client τ) :
    mergeManual branch c =
      ((execute (Statement.mergeManual branch).text c).1.bind
          (MergeOutcome.of (Statement.mergeManual branch).text),
        (execute (Statement.mergeManual branch).text c).2) := by
  have hcheck : checkBranch branch c = (.ok (), c) := by
    simp only [checkBranch, Call.ofUsage, hbranch]
  rw [mergeManual, Call.bind_apply_ok hcheck]
  rcases hx : execute (Statement.mergeManual branch).text c with ⟨e | r, d⟩
  · exact Call.bind_apply_error hx
  · refine (Call.bind_apply_ok hx).trans ?_
    cases r with
    | commit s => rfl
    | query q =>
      dsimp only
      rw [Call.map_apply]
      rfl

/-- Every way in which a manual merge can be answered, with the merge state that it leaves. -/
inductive MergeAnswered (command : String) (c : Client τ) :
    Except ClientError MergeOutcome → MergeState → Prop
  | merged {s : CommitResult} (h : c.Replied command (.commit s)) :
    MergeAnswered command c (.ok (.merged s)) .clean
  | pending {q : QueryResult} {conflicts : List MergeConflict}
    (h : c.Replied command (.query q)) (hlisted : List.Forall₂ IsListed q.walk.toList conflicts) :
    MergeAnswered command c (.ok (.pending conflicts)) .pending
  | unlisted {q : QueryResult} {name : String} (h : c.Replied command (.query q))
    (hrows : q.rows ≠ []) (hname : missingColumn? q.columns = some name) :
    MergeAnswered command c (.error (.protocol command (.missingColumn name))) .pending
  | failed {e : ClientError} (h : ∀ r, ¬c.Replied command r) :
    MergeAnswered command c (.error e) .clean

/-- A listing of conflicts that was replied with opens the merge, whether or not the conflicts
can be read of it. -/
theorem mergeAnswered_of_query {q : QueryResult} (h : c.Replied command (.query q)) :
    MergeAnswered command c (MergeOutcome.of command (.query q)) .pending := by
  cases hlisted : ofListing q command with
  | ok conflicts =>
    rw [MergeOutcome.of, hlisted]
    exact .pending h (ofListing_eq_ok_iff.1 hlisted)
  | error e =>
    have hcomplete : ¬(q.rows = [] ∨ missingColumn? q.columns = none) := by
      intro hcomplete
      obtain ⟨conflicts, hread⟩ : ∃ conflicts, ofListing q command = .ok conflicts :=
        exists_ofListing_of_complete hcomplete
      rw [hread] at hlisted
      cases hlisted
    obtain ⟨hrows, hmissing⟩ := not_or.1 hcomplete
    obtain ⟨name, hname⟩ := Option.ne_none_iff_exists'.1 hmissing
    rw [MergeOutcome.of, ofListing_of_missing hrows hname]
    exact .unlisted h hrows hname

theorem mergeAnswered_of_class (hopen : c.session.isOpen = true)
    (hclean : c.session.merge = .clean) (hclass : CommandClass.of command = .manualMerge) :
    MergeAnswered command c ((execute command c).1.bind (MergeOutcome.of command))
      (execute command c).2.session.merge := by
  have hadmitted : c.refusal? command = none :=
    admitted_of_not_forbids hopen (by simp [forbids, hclean])
  cases houtcome : (execute command c).1 with
  | error e =>
    have hnone : ∀ r, ¬c.Replied command r := by
      intro r hr
      rw [replied_iff.1 hr] at houtcome
      cases houtcome
    -- a lost connection clears the merge, and a failed reply does not open one
    have hmerge : (execute command c).2.session.merge = .clean := by
      cases hstill : (execute command c).2.session.isOpen with
      | false => exact merge_execute_of_closed hadmitted hstill
      | true =>
        rw [merge_execute_of_open hadmitted hstill, houtcome, hclean]
        exact MergeState.clean_after_failed _
    rw [hmerge]
    exact .failed hnone
  | ok r =>
    have hreplied : c.Replied command r := replied_iff.2 houtcome
    have hstill := (isOpen_of_execute_ok (Prod.ext houtcome rfl)).1
    rw [merge_execute_of_open hadmitted hstill, houtcome, hclass, hclean]
    cases r with
    | commit s => exact .merged hreplied
    | query q => exact mergeAnswered_of_query hreplied

/-- What a manual merge answers is what the session takes the merge to be. If it answers that
the merge is done, no merge is open; if it answers with conflicts, one for each listed row in
their order, a merge is open. It is open as well if rows were listed without a column of the
conflicts' path, which is the error then; after every other error none is. An open merge is
ended by an abort, and by a commit that succeeds. -/
theorem mergeManual_tells_state {branch : String} (hopen : c.session.isOpen = true)
    (hclean : c.session.merge = .clean) (hbranch : checkOneWord "branch name" branch = .ok ()) :
    let d := (mergeManual branch c).2
    MergeAnswered (Statement.mergeManual branch).text c (mergeManual branch c).1
        d.session.merge ∧
      (d.session.merge = .pending →
        d.session.isOpen = true ∧ (abortMerge d).2.session.merge = .clean ∧
          ((commitMerge d).2.session.merge = .clean ↔
            (∃ r, d.Replied Statement.commitMerge.text r) ∨
              (commitMerge d).2.session.isOpen = false)) := by
  intro d
  have hclass := Statement.class_text_mergeManual hbranch
  have hd : d = (execute (Statement.mergeManual branch).text c).2 := by
    rw [show d = (mergeManual branch c).2 from rfl, mergeManual_apply hbranch]
  constructor
  · rw [hd, mergeManual_apply hbranch]
    exact mergeAnswered_of_class hopen hclean hclass
  · intro hpending
    have hstill : d.session.isOpen = true := by
      cases hlost : d.session.isOpen with
      | true => rfl
      | false =>
        have hadmitted : c.refusal? (Statement.mergeManual branch).text = none :=
          admitted_of_not_forbids hopen (by simp [forbids, hclean])
        rw [hd] at hlost hpending
        rw [merge_execute_of_closed hadmitted hlost] at hpending
        cases hpending
    exact ⟨hstill, merge_abortMerge hstill, merge_commitMerge_eq_clean_iff hstill hpending⟩

/-- A listing of conflicts without their keys. -/
def keylessListing : String :=
  "\x7b\"success\":true,\"type\":\"query\",\"result\":\x7b\"columns\":" ++
    "[\"Database\",\"Table\"],\"data\":[[\"d\",\"t\"]]\x7d\x7d\n"

/-- The merge is open though its conflicts cannot be named, and an abort ends it. -/
theorem mergeManual_of_keylessListing :
    let c := receiving [keylessListing]
    let command := (Statement.mergeManual "b").text
    (mergeManual "b" c).1 = .error (.protocol command (.missingColumn "Key")) ∧
      MergeAnswered command c (.error (.protocol command (.missingColumn "Key"))) .pending ∧
        (abortMerge (mergeManual "b" c).2).2.session.merge = .clean := by
  intro c command
  have hopen : c.session.isOpen = true := rfl
  have hclean : c.session.merge = .clean := rfl
  have hbranch : checkOneWord "branch name" "b" = .ok () := by decide
  have hanswer : (mergeManual "b" c).1 = .error (.protocol command (.missingColumn "Key")) := by
    decide +kernel
  have hpending : (mergeManual "b" c).2.session.merge = .pending := by decide +kernel
  obtain ⟨hanswered, hended⟩ := mergeManual_tells_state hopen hclean hbranch
  rw [hanswer, hpending] at hanswered
  exact ⟨hanswer, hanswered, (hended hpending).2.1⟩

end Client
end DbClient
