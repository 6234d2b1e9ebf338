import DbClient.Merge.Listing
import DbClient.Proofs.Except
import DbClient.Reply.Decode

/-!
# Faults of replies

However a reply is read, it fails in one of two ways: the reply breaks the protocol, or it
is the server that has rejected the command. Both name the command. Only the field of
success decides between them.
-/

namespace DbClient

variable {command : String}

namespace ClientError

/-- A reply to a command that breaks the protocol. -/
def IsViolation (command : String) (e : ClientError) : Prop :=
  ∃ v, e = .protocol command v

/-- How reading the reply to a command can fail. -/
inductive IsReplyFault (command : String) : ClientError → Prop
  | protocol (v : Violation) : IsReplyFault command (.protocol command v)
  | server (message : String) : IsReplyFault command (.server command message)

theorem IsViolation.isReplyFault {e : ClientError} (h : IsViolation command e) :
    IsReplyFault command e := by
  obtain ⟨v, rfl⟩ := h
  exact .protocol v

end ClientError

open ClientError (IsReplyFault IsViolation)

theorem QueryPayload.toResult_fails (p : QueryPayload) :
    FailsOnly (IsViolation command) (p.toResult command) := by
  unfold toResult
  dsimp only
  split
  · exact .ok _
  · exact .error ⟨_, rfl⟩

namespace Envelope

theorem decode_eq_ok_iff {line : Bytes} {e : Envelope} :
    decode line command = .ok e ↔ read line = .ok e := by
  unfold decode
  split <;> simp_all

theorem decode_fails (line : Bytes) : FailsOnly (IsViolation command) (decode line command) := by
  unfold decode
  split
  · exact .ok _
  · exact .error ⟨_, rfl⟩

theorem ensureSuccess_fails (e : Envelope) :
    FailsOnly (IsReplyFault command) (e.ensureSuccess command) := by
  unfold ensureSuccess
  split
  · exact .ok _
  · exact .error (.server _)

theorem payload_fails {π : Type} (e : Envelope) (schema : Schema π) (defaults : π) :
    FailsOnly (IsViolation command) (e.payload schema defaults command) := by
  unfold payload
  split
  · exact .ok _
  · exact .error ⟨_, rfl⟩

/-- A success may still break the protocol, and fails in no other way. -/
theorem toResult_fails_of_success {e : Envelope} (h : e.success = true) :
    FailsOnly (IsViolation command) (e.toResult command) := by
  have haccepted : e.ensureSuccess command = .ok e := if_pos h
  rw [toResult, haccepted]
  show FailsOnly _ (if _ then _ else _)
  split
  · exact .bind (e.payload_fails _ _) fun p => .bind p.toResult_fails fun q => .ok _
  split
  · exact .bind (e.payload_fails _ _) fun p => .ok _
  · exact .ok _

/-- A failure is the server's rejection. -/
theorem toResult_of_not_success {e : Envelope} (h : e.success = false) :
    e.toResult command = .error (.server command (e.error.getD unknownError)) := by
  have hrejected : e.ensureSuccess command =
      .error (.server command (e.error.getD unknownError)) := if_neg (by simp [h])
  rw [toResult, hrejected]
  rfl

theorem toResult_fails (e : Envelope) : FailsOnly (IsReplyFault command) (e.toResult command) := by
  cases h : e.success with
  | true => exact (toResult_fails_of_success h).mono fun _ hv => hv.isReplyFault
  | false =>
    rw [toResult_of_not_success h]
    exact .error (.server _)

theorem toAuth_fails (e : Envelope) : FailsOnly (IsReplyFault command) (e.toAuth command) := by
  refine .bind e.ensureSuccess_fails fun accepted => ?_
  split
  · exact (accepted.payload_fails _ _).mono fun _ hv => hv.isReplyFault
  · exact .error (.protocol _)

end Envelope

namespace MergeConflict

theorem required_fails (row : Row) (name : String) :
    FailsOnly (IsViolation command) (required command row name) := by
  unfold required
  split
  · exact .ok _
  · exact .error ⟨_, rfl⟩

theorem ofListing_fails (q : QueryResult) :
    FailsOnly (IsViolation command) (ofListing q command) := by
  refine .mapM (fun row => ?_) _
  refine .bind (required_fails row "Database") fun database => ?_
  refine .bind (required_fails row "Table") fun table => ?_
  exact .bind (required_fails row "Key") fun key => .ok _

end MergeConflict
end DbClient
