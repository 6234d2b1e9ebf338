import DbClient.Proofs.Transport.Supplied
import DbClient.Transport.Host

/-!
# Replies that are cut into lines

A library answers each command with one reply, and nothing keeps newlines out of it. On
the channel the reply is as many lines as it has newlines, and one more, so that a reply
with a newline leaves lines behind for the commands after it.
-/

namespace DbClient

/-- The lines of the stream that replies make up, each reply followed by a newline. -/
def replyLines (replies : List Bytes) : List Bytes :=
  replies.flatMap (List.splitOn delimiter)

/-! ## The lines of one reply -/

theorem splitOn_delimiter_cons (b : UInt8) (rest : Bytes) :
    ∃ line lines, rest.splitOn delimiter = line :: lines ∧
      (b :: rest).splitOn delimiter =
        if b = delimiter then [] :: line :: lines else (b :: line) :: lines := by
  obtain ⟨line, lines, hrest⟩ := List.exists_cons_of_ne_nil (List.splitOn_ne_nil delimiter rest)
  refine ⟨line, lines, hrest, ?_⟩
  rw [List.splitOn_cons_eq_if_modifyHead, hrest]
  by_cases hb : b = delimiter <;> simp [hb]

theorem delimiter_notMem_of_mem_splitOn {reply line : Bytes}
    (h : line ∈ reply.splitOn delimiter) : delimiter ∉ line := by
  induction reply generalizing line with
  | nil =>
    rw [List.splitOn_nil, List.mem_singleton] at h
    simp [h]
  | cons b rest ih =>
    obtain ⟨first, lines, hrest, hcons⟩ := splitOn_delimiter_cons b rest
    rw [hrest] at ih
    rw [hcons] at h
    by_cases hb : b = delimiter
    · rw [if_pos hb] at h
      rcases List.mem_cons.1 h with rfl | h
      · simp
      · exact ih h
    · rw [if_neg hb] at h
      rcases List.mem_cons.1 h with rfl | h
      · intro hmem
        rcases List.mem_cons.1 hmem with heq | hmem
        · exact hb heq.symm
        · exact ih List.mem_cons_self hmem
      · exact ih (List.mem_cons_of_mem _ h)

/-- The lines of a reply are what is on the channel. -/
theorem replyStream_splitOn (reply : Bytes) :
    replyStream (reply.splitOn delimiter) = reply ++ [delimiter] := by
  induction reply with
  | nil => rfl
  | cons b rest ih =>
    obtain ⟨line, lines, hrest, hcons⟩ := splitOn_delimiter_cons b rest
    rw [hrest] at ih
    rw [hcons]
    by_cases hb : b = delimiter
    · rw [if_pos hb, replyStream_cons, ih, hb]
      rfl
    · rw [if_neg hb, replyStream_cons, List.cons_append, ← replyStream_cons, ih]
      rfl

/-- The first line of a reply is what stands before its first newline. -/
theorem head?_splitOn (reply : Bytes) :
    (reply.splitOn delimiter).head? = some (reply.takeWhile (· ≠ delimiter)) := by
  induction reply with
  | nil => rfl
  | cons b rest ih =>
    obtain ⟨line, lines, hrest, hcons⟩ := splitOn_delimiter_cons b rest
    rw [hrest, List.head?_cons, Option.some.injEq] at ih
    rw [hcons]
    by_cases hb : b = delimiter
    · simp [hb]
    · simp [hb, ih]

theorem one_lt_length_splitOn {reply : Bytes} (h : delimiter ∈ reply) :
    1 < (reply.splitOn delimiter).length := by
  induction reply with
  | nil => cases h
  | cons b rest ih =>
    obtain ⟨line, lines, hrest, hcons⟩ := splitOn_delimiter_cons b rest
    rw [hcons]
    by_cases hb : b = delimiter
    · rw [if_pos hb]
      simp
    · rcases List.mem_cons.1 h with heq | h
      · exact absurd heq.symm hb
      · have hlen := ih h
        rw [hrest] at hlen
        rw [if_neg hb]
        simpa using hlen

/-! ## The lines of many replies -/

section Replies

variable {replies : List Bytes} {k : Nat}

theorem replyLines_cons (reply : Bytes) (replies : List Bytes) :
    replyLines (reply :: replies) = reply.splitOn delimiter ++ replyLines replies := rfl

theorem delimiter_notMem_of_mem_replyLines {line : Bytes} (h : line ∈ replyLines replies) :
    delimiter ∉ line := by
  obtain ⟨reply, -, hline⟩ := List.mem_flatMap.1 h
  exact delimiter_notMem_of_mem_splitOn hline

theorem length_le_length_replyLines (replies : List Bytes) :
    replies.length ≤ (replyLines replies).length := by
  induction replies with
  | nil => simp
  | cons reply replies ih =>
    have hpos := List.length_pos_iff.2 (List.splitOn_ne_nil delimiter reply)
    rw [replyLines_cons, List.length_append, List.length_cons]
    omega

/-- A reply with a newline is more than one line. -/
theorem length_lt_length_replyLines {reply : Bytes} (hmem : reply ∈ replies)
    (h : delimiter ∈ reply) : replies.length < (replyLines replies).length := by
  obtain ⟨before, after, rfl⟩ := List.append_of_mem hmem
  have hbefore := length_le_length_replyLines before
  have hafter := length_le_length_replyLines after
  have hreply := one_lt_length_splitOn h
  rw [replyLines, List.flatMap_append, List.flatMap_cons]
  simp only [replyLines, List.length_append, List.length_cons] at hbefore hafter ⊢
  omega

/-- Replies without newlines are the lines. -/
theorem replyLines_of_newlineFree (h : ∀ reply ∈ replies, delimiter ∉ reply) :
    replyLines replies = replies := by
  induction replies with
  | nil => rfl
  | cons reply replies ih =>
    obtain ⟨hreply, hreplies⟩ := List.forall_mem_cons.1 h
    rw [replyLines_cons, ih hreplies, List.splitOn_eq_singleton hreply, List.singleton_append]

theorem replyLines_take_succ (hk : k < replies.length) :
    replyLines (replies.take (k + 1)) =
      replyLines (replies.take k) ++ replies[k].splitOn delimiter := by
  rw [List.take_succ_eq_append_getElem hk, replyLines, List.flatMap_append, List.flatMap_singleton,
    replyLines]

theorem le_length_replyLines_take (hk : k ≤ replies.length) :
    k ≤ (replyLines (replies.take k)).length := by
  have hle := length_le_length_replyLines (replies.take k)
  rw [List.length_take] at hle
  omega

/-- A reply joins the lines that wait, and the first of them is the line with its index. -/
theorem exists_next_line (hk : k < replies.length) :
    ∃ line, (replyLines (replies.take (k + 1)))[k]? = some line ∧
      replyStream ((replyLines (replies.take k)).drop k) ++ (replies[k] ++ [delimiter]) =
        line ++ delimiter :: replyStream ((replyLines (replies.take (k + 1))).drop (k + 1)) := by
  have hlen := le_length_replyLines_take (show k + 1 ≤ replies.length by omega)
  have hlt : k < (replyLines (replies.take (k + 1))).length := by omega
  have hdrop := List.drop_eq_getElem_cons hlt
  refine ⟨_, List.getElem?_eq_getElem hlt, ?_⟩
  rw [← replyStream_cons, ← hdrop, replyLines_take_succ hk,
    List.drop_append_of_le_length (le_length_replyLines_take (by omega)), replyStream_append,
    replyStream_splitOn]

/-- As long as no reply has had a newline, the line with an index begins the reply with
that index. -/
theorem getElem?_replyLines_of_newlineFree (hk : k < replies.length)
    (h : ∀ reply ∈ replies.take k, delimiter ∉ reply) :
    (replyLines (replies.take (k + 1)))[k]? = some (replies[k].takeWhile (· ≠ delimiter)) := by
  have hlen : (replies.take k).length = k := by
    rw [List.length_take]
    omega
  rw [replyLines_take_succ hk, replyLines_of_newlineFree h, List.getElem?_append_right (by omega),
    hlen, Nat.sub_self, ← List.head?_eq_getElem?, head?_splitOn]

/-- After that it is a line of the replies before it. -/
theorem getElem?_replyLines_of_newline {reply : Bytes} (hk : k < replies.length)
    (hmem : reply ∈ replies.take k) (h : delimiter ∈ reply) :
    (replyLines (replies.take (k + 1)))[k]? = (replyLines (replies.take k))[k]? := by
  have hlt := length_lt_length_replyLines hmem h
  rw [List.length_take] at hlt
  rw [replyLines_take_succ hk, List.getElem?_append_left (by omega)]

end Replies

/-! ## A library behind a channel -/

theorem Embedded.commandOf_frame (command : Bytes) :
    Embedded.commandOf (command ++ [delimiter]) = command := by
  simp [Embedded.commandOf]

/-- A command without NUL is executed by the library, and the reply is kept as a line. -/
theorem Embedded.send_of_reply {t : Embedded} {command reply : Bytes} {later : List (Option Bytes)}
    (hopen : t.isOpen = true) (hnul : 0 ∉ command)
    (hreplies : t.engine.replies = some reply :: later) :
    t.send (command ++ [delimiter]) =
      (.ok (), { t with
        pending := t.pending ++ (reply ++ [delimiter])
        engine := ({ t.engine.note (.execute t.handle command) with
          replies := later }).free ⟨t.engine.executed.length, reply⟩ }) := by
  simp [Embedded.send, commandOf_frame, hnul, hopen, Engine.execute, hreplies]

/-- A line that has arrived, in the buffer or in the transport, is taken, and what
follows it is left there. -/
theorem FrameBuffer.readFrame_embedded {b : FrameBuffer} {t : Embedded} {line rest : Bytes}
    (label : String) (network : Network) (hopen : t.isOpen = true) (hline : delimiter ∉ line)
    (h : b.bytes ++ t.pending = line ++ delimiter :: rest) :
    ∃ left pending, b.readFrame label (Host.embedded t network) =
        (.ok line, left, .embedded { t with pending := pending } network) ∧
      left.bytes ++ pending = rest := by
  cases hnext : b.next? with
  | some found =>
    obtain ⟨frame, left⟩ := found
    obtain ⟨hbytes, hframe⟩ := next?_eq_some_iff.1 hnext
    rw [hbytes, List.append_assoc, List.cons_append] at h
    obtain ⟨rfl, hrest⟩ := line_unique hline hframe h
    exact ⟨left, t.pending, readFrame_of_next hnext, hrest⟩
  | none =>
    -- nothing is complete in the buffer, so all that the transport holds is received
    have hne : t.pending ≠ [] := by
      intro hempty
      rw [hempty, List.append_nil] at h
      apply next?_eq_none_iff.1 hnext
      rw [h]
      simp
    have hreceive : Transport.receive (Host.embedded t network) =
        (.ok t.pending, Host.embedded { t with pending := [] } network) := by
      show Host.receive _ = _
      simp [Host.receive, Embedded.receive, hopen]
    have hpushed : (b.push t.pending).next? = some (line, ⟨rest⟩) :=
      next?_eq_some_iff.2 ⟨h, hline⟩
    refine ⟨⟨rest⟩, [], ?_, List.append_nil rest⟩
    rw [readFrame_of_chunk hnext hreceive hne]
    exact readFrame_of_next hpushed

end DbClient
