import DbClient.Proofs.Reply.QueryLine
import DbClient.Proofs.Session.Exchange
import DbClient.Transport.Scripted

/-!
# Rows from the server

The rows that a server writes are the rows that the caller gets, whatever texts they are and
however their line is cut into chunks on its way.
-/

namespace DbClient.Client

open FrameBuffer (Delivers)
open Json (Escaping)

variable {τ : Type} [Transport τ] {c : Client τ} {command : String}

/-- An admitted command that is answered by a query reply returns the rows that the server has
written, and nothing is left in the buffer. -/
theorem execute_of_queryLine {link link' : τ} {chunks : List Bytes} {e : Escaping}
    {columns : List String} {rows : List (List String)} {n : UInt64}
    (hadmitted : c.refusal? command = none) (hframed : delimiter ∉ Utf8.encode command)
    (hempty : c.session.buffer = .empty)
    (hsend : Transport.send (frameOf command) c.link = (.ok (), link))
    (hdelivers : Delivers link chunks link')
    (hchunks : chunks.flatten = queryLine e columns rows n ++ [delimiter])
    (hrows : ∀ row ∈ rows, row.length = columns.length) :
    ∃ c', execute command c = (.ok (.query ⟨columns, rows, n, .zero, hrows⟩), c') ∧
      c'.session.buffer = .empty ∧ c'.session.isOpen = true ∧ c'.link = link' := by
  have hread : c.session.buffer.readFrame command link =
      (.ok (queryLine e columns rows n), .empty, link') := by
    rw [hempty]
    exact FrameBuffer.readFrame_of_delivers hdelivers hchunks
      (delimiter_notMem_queryLine e columns rows n)
  have hopen : c.session.isOpen = true := isOpen_of_admitted hadmitted
  have hexchange : exchange command command c =
      (.ok (queryLine e columns rows n), ⟨{ c.session with buffer := .empty }, link'⟩) :=
    exchange_of_answered hframed hopen hsend hread
  have hresult : readResult command (queryLine e columns rows n) =
      .ok (.query ⟨columns, rows, n, .zero, hrows⟩) := by
    rw [readResult, Envelope.decode_queryLine]
    exact Envelope.toResult_queryLine hrows command
  rw [execute_of_admitted hadmitted, hexchange]
  simp only [Except.bind, hresult]
  exact ⟨_, rfl, rfl, hopen, rfl⟩

/-- A reply with escapes and with a character of two bytes. -/
def accentedReply : Bytes :=
  queryLine ⟨fun _ => true, fun _ => false⟩ ["é"] [["\""], ["é\n"]] 2 ++ [delimiter]

/-- Its rows are returned, though it is cut inside the character and inside an escape. -/
theorem execute_of_cutReply :
    let chunks := [accentedReply.take 54, (accentedReply.drop 54).take 15,
      (accentedReply.drop 54).drop 15]
    let c : Client Scripted := attach .default (.start (chunks.map .ok) [])
    ∃ c', execute "SELECT 1" c =
        (.ok (.query ⟨["é"], [["\""], ["é\n"]], 2, .zero, by decide⟩), c') ∧
      c'.session.buffer = .empty := by
  intro chunks c
  have hrows : ∀ row ∈ [["\""], ["é\n"]], row.length = ["é"].length := by decide
  have hadmitted : c.refusal? "SELECT 1" = none := by decide +kernel
  have hchunks : chunks.flatten = accentedReply := by
    simp only [chunks, List.flatten_cons, List.flatten_nil, List.append_nil,
      List.take_append_drop]
  have hfirst : accentedReply.take 54 ≠ [] := by decide +kernel
  have hsecond : (accentedReply.drop 54).take 15 ≠ [] := by decide +kernel
  have hthird : (accentedReply.drop 54).drop 15 ≠ [] := by decide +kernel
  obtain ⟨c', hexecute, hbuffer, -⟩ := execute_of_queryLine hadmitted (by decide) rfl rfl
    (.chunk rfl hfirst (.chunk rfl hsecond (.chunk rfl hthird (.done _)))) hchunks hrows
  exact ⟨c', hexecute, hbuffer⟩

end DbClient.Client
