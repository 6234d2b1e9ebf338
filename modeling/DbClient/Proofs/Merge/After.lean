import DbClient.Merge.State

/-!
# The merge state after a reply

What the state after a command depends on: the class of the command decides whether
the reply matters at all, and whether it matters how many rows there are.
-/

namespace DbClient

/-- Replies that are both failures, both summaries of changes, or both rows. -/
inductive Reply.SameShape : Reply → Reply → Prop
  | failed : SameShape .failed .failed
  | commit : SameShape .commit .commit
  | query (n m : Nat) : SameShape (.query n) (.query m)

/-- Whether the merge state after a command depends on what its reply is. -/
def CommandClass.asksReply : CommandClass → Bool
  | manualMerge | commitMerge | showConflicts => true
  | _ => false

namespace MergeState

variable {cls : CommandClass}

/-- After a failure the state is as before, unless an abort has failed. -/
theorem after_failed (h : cls ≠ .abortMerge) (m : MergeState) : m.after cls .failed = m := by
  cases cls with
  | abortMerge => exact absurd rfl h
  | _ => rfl

theorem clean_after_failed (cls : CommandClass) : clean.after cls .failed = clean := by
  cases cls <;> rfl

/-- Only a listing of conflicts is asked how many rows it has. -/
theorem after_of_sameShape {a b : Reply} (h : a.SameShape b) (hcls : cls ≠ .showConflicts)
    (m : MergeState) : m.after cls a = m.after cls b := by
  cases h with
  | failed | commit => rfl
  | query =>
    cases cls with
    | showConflicts => exact absurd rfl hcls
    | _ => rfl

theorem after_of_not_asksReply (h : cls.asksReply = false) (m : MergeState) (a b : Reply) :
    m.after cls a = m.after cls b := by
  cases cls with
  | manualMerge | commitMerge | showConflicts => cases h
  | _ => rfl

/-- Commands that neither ask for their reply nor abort leave the state alone. -/
theorem after_of_inert (h : cls.asksReply = false) (habort : cls ≠ .abortMerge) (m : MergeState)
    (reply : Reply) : m.after cls reply = m := by
  rw [after_of_not_asksReply h m reply .failed]
  exact after_failed habort m

/-- A merge is open after a command if its outcome has opened one, or if one was open
and the command has not ended it. -/
theorem after_of_eq_pending_iff (m : MergeState) (cls : CommandClass)
    (outcome : Except ClientError ExecuteResult) :
    m.after cls (.of outcome) = pending ↔
      cls = .manualMerge ∧ (∃ q, outcome = .ok (.query q)) ∨
        cls = .showConflicts ∧ (∃ q, outcome = .ok (.query q) ∧ 0 < q.length) ∨
        m = pending ∧ cls ≠ .abortMerge ∧ ¬(cls = .commitMerge ∧ ∃ r, outcome = .ok r) := by
  cases outcome with
  | error e => cases cls <;> simp [Reply.of, after]
  | ok r =>
    cases r with
    | commit s => cases cls <;> simp [Reply.of, after]
    | query q =>
      cases cls with
      | showConflicts =>
        -- a listing opens a merge only if it has rows
        simp only [Reply.of, after]
        split <;> simp_all
      | _ => simp [Reply.of, after]

end MergeState
end DbClient
