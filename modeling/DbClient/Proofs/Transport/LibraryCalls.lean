import DbClient.Transport.Embedded

/-!
# Calls into a library

A transport into a library calls it in one way only. The handle that was opened is used for
every command and is closed once, at the end; a reply is given back right after the call that
returned it, that reply and no other, so that at no time more than one is out; and nothing is
called after the end, nor after a library that could not be opened.
-/

namespace DbClient

/-! ## Uses of a transport -/

/-- A call of a transport's interface. -/
inductive TransportCall where
  | send (frame : Bytes)
  | receive
  | terminate
  | close
  deriving DecidableEq, Repr

namespace TransportCall

variable {τ : Type} [Transport τ]

/-- The transport after a call. -/
def perform : TransportCall → τ → τ
  | send frame, t => (Transport.send frame t).2
  | receive, t => (Transport.receive t).2
  | terminate, t => (Transport.terminate t).2
  | close, t => Transport.close t

/-- The transport after calls, one after another, whatever comes of each. -/
def performAll (calls : List TransportCall) (t : τ) : τ :=
  calls.foldl (fun t call => call.perform t) t

/-- The transport after calls, and after it has been dropped, which closes it. -/
def performAndDrop (calls : List TransportCall) (t : τ) : τ :=
  Transport.close (performAll calls t)

end TransportCall

/-! ## What is called -/

/-- The call that opens a database. -/
def Database.opening : Database → EngineEvent
  | memory => .openMemory
  | directory path => .openFile path

namespace Engine

/-- The calls that execute the command with an index: its reply is given back at once, and a
null pointer is not. -/
def execution (handle : Int) (index : Nat) (command : Bytes) : Option Bytes → List EngineEvent
  | some _ => [.execute handle command, .free index]
  | none => [.execute handle command]

/-- The calls that execute commands in order, from an index on, each of which returns the next
of the replies, and a null pointer when these have run out. -/
def executions (handle : Int) : Nat → List Bytes → List (Option Bytes) → List EngineEvent
  | _, [], _ => []
  | index, command :: rest, replies =>
    execution handle index command replies.head?.join ++
      executions handle (index + 1) rest replies.tail

variable {e e' : Engine}

theorem executed_of_opening {database : Database}
    (hevents : e'.events = e.events ++ [database.opening]) : e'.executed = e.executed := by
  rw [executed, hevents, List.filterMap_append]
  cases database <;> exact List.append_nil _

/-- Whether or not there is a reply, the next command has the next index. -/
theorem length_executed {handle : Int} {index : Nat} {command : Bytes} {reply : Option Bytes}
    (hevents : e'.events = e.events ++ execution handle index command reply) :
    e'.executed.length = e.executed.length + 1 := by
  rw [executed, hevents, List.filterMap_append, List.length_append]
  cases reply <;> rfl

end Engine

/-- The commands that reach a library: those of the frames sent before the first close, except
commands with NUL. -/
def TransportCall.reaching : List TransportCall → List Bytes
  | [] => []
  | .send frame :: rest =>
    if 0 ∈ Embedded.commandOf frame then reaching rest
    else Embedded.commandOf frame :: reaching rest
  | .receive :: rest | .terminate :: rest => reaching rest
  | .close :: _ => []

namespace Embedded

variable {t : Embedded}

/-! ## Opening -/

/-- Opening a database is one call, unless its directory cannot be given to the library. -/
theorem openDatabase_cases (database : Database) (e : Engine) :
    (∃ fault, openDatabase database e = (.error fault, e)) ∨
      openDatabase database e = (.ok (e.openCodes.headD 1),
        { e.note database.opening with openCodes := e.openCodes.tail }) := by
  cases database with
  | memory => exact .inr rfl
  | directory path =>
    unfold openDatabase
    dsimp only
    split
    · exact .inl ⟨_, rfl⟩
    · exact .inr rfl

/-- What loading a library can do. If it fails, the library has not been called, or only to
open the database. If it goes well, that was one call, whose handle is not negative. -/
inductive Loaded (database : Database) (e : Engine) : Except ClientError Embedded × Engine → Prop
  | uncalled (fault : ClientError) : Loaded database e (.error fault, e)
  | refused (fault : ClientError) {e' : Engine}
    (hevents : e'.events = e.events ++ [database.opening]) : Loaded database e (.error fault, e')
  | opened {t : Embedded} (hevents : t.engine.events = e.events ++ [database.opening])
    (hreplies : t.engine.replies = e.replies) (hhandle : t.handle = e.openCodes.headD 1)
    (hnonneg : 0 ≤ t.handle) (hopen : t.isOpen = true) : Loaded database e (.ok t, t.engine)

theorem loaded (path : String) (database : Database) (e : Engine) :
    Loaded database e (load path database e) := by
  unfold load
  dsimp only
  split
  · exact .uncalled _
  split
  · exact .uncalled _
  split
  · exact .uncalled _
  rcases openDatabase_cases database e with ⟨fault, hfault⟩ | hopened
  · rw [hfault]
    exact .uncalled _
  · rw [hopened]
    dsimp only
    split
    · exact .refused _ rfl
    · rename_i hnonneg
      exact .opened rfl rfl rfl (Int.not_lt.1 hnonneg) rfl

/-! ## After the end -/

theorem perform_of_closed (h : t.isOpen = false) (call : TransportCall) : call.perform t = t := by
  cases call with
  | send frame =>
    show (t.send frame).2 = t
    unfold send
    dsimp only
    split
    · rfl
    · rw [if_pos (by rw [h]; rfl)]
  | receive =>
    show t.receive.2 = t
    rw [receive, if_neg (by simp [h])]
  | terminate => rfl
  | close =>
    show t.close = t
    rw [close, if_neg (by simp [h])]

/-- Once the database has been closed, nothing is called any more. -/
theorem performAndDrop_of_closed (h : t.isOpen = false) (calls : List TransportCall) :
    TransportCall.performAndDrop calls t = t := by
  induction calls with
  | nil => exact perform_of_closed h .close
  | cons call rest ih =>
    rw [TransportCall.performAndDrop, TransportCall.performAll, List.foldl_cons,
      perform_of_closed h call]
    exact ih

/-! ## Until the end -/

section Open

variable (h : t.isOpen = true)

include h

theorem close_of_open :
    t.close.isOpen = false ∧ t.close.engine.events = t.engine.events ++ [.close t.handle] := by
  rw [close, if_pos h]
  exact ⟨rfl, rfl⟩

/-- A command without NUL is executed on the handle. -/
theorem send_of_open {frame : Bytes} (hnul : 0 ∉ commandOf frame) :
    (t.send frame).2.isOpen = true ∧ (t.send frame).2.handle = t.handle ∧
      (t.send frame).2.engine.replies = t.engine.replies.tail ∧
      (t.send frame).2.engine.events = t.engine.events ++
        Engine.execution t.handle t.engine.executed.length (commandOf frame)
          t.engine.replies.head?.join := by
  unfold send
  dsimp only
  rw [if_neg hnul, if_neg (by simp [h])]
  rcases hreply : t.engine.replies.head?.join with _ | reply <;>
    simp [Engine.execute, hreply, Engine.note, Engine.free, Engine.execution, h]

/-- What a run of calls makes of a library that is open: it executes the commands that reach
it, and is closed at the first close or when the transport is dropped. -/
theorem events_performAndDrop (calls : List TransportCall) :
    (TransportCall.performAndDrop calls t).engine.events =
      t.engine.events ++
        Engine.executions t.handle t.engine.executed.length (TransportCall.reaching calls)
          t.engine.replies ++
        [.close t.handle] := by
  induction calls generalizing t with
  | nil =>
    rw [TransportCall.reaching, Engine.executions, List.append_nil]
    exact (close_of_open h).2
  | cons call rest ih =>
    have hnext : TransportCall.performAndDrop (call :: rest) t =
        TransportCall.performAndDrop rest (call.perform t) := rfl
    rw [hnext]
    cases call with
    | send frame =>
      rw [TransportCall.reaching]
      by_cases hnul : 0 ∈ commandOf frame
      · have hsame : (TransportCall.send frame).perform t = t := by
          show (t.send frame).2 = t
          unfold send
          dsimp only
          rw [if_pos hnul]
        rw [hsame, if_pos hnul, ih h]
      · obtain ⟨hopen, hhandle, hreplies, hevents⟩ := send_of_open h hnul
        rw [if_neg hnul, Engine.executions, ← List.append_assoc, ← Engine.length_executed hevents,
          ← hevents, ← hreplies, ← hhandle]
        exact ih hopen
    | receive =>
      have hreceive : TransportCall.receive.perform t = { t with pending := [] } := by
        show t.receive.2 = _
        rw [receive, if_pos h]
      rw [hreceive]
      exact ih h
    | terminate => exact ih h
    | close =>
      obtain ⟨hclosed, hevents⟩ := close_of_open h
      have hrest : TransportCall.performAndDrop rest (TransportCall.close.perform t) = t.close :=
        performAndDrop_of_closed hclosed rest
      rw [hrest, TransportCall.reaching, Engine.executions, List.append_nil, hevents]

end Open

/-- The calls into a library. If it cannot be loaded, it has been called at most to open the
database. If it is loaded, then after that call every use of the transport, up to its drop,
makes these calls and no others: the commands that reach the library are executed in order on
the handle that was opened, each reply is given back at once, that reply and no other, and then
that handle is closed, once and last. -/
theorem library_called_in_order (path : String) (database : Database) (e : Engine) :
    (∀ fault e', load path database e = (.error fault, e') →
      e'.events = e.events ∨ e'.events = e.events ++ [database.opening]) ∧
    (∀ t e', load path database e = (.ok t, e') →
      t.handle = e.openCodes.headD 1 ∧ 0 ≤ t.handle ∧
      ∀ calls, (TransportCall.performAndDrop calls t).engine.events =
        e.events ++ [database.opening] ++
          Engine.executions t.handle e.executed.length (TransportCall.reaching calls) e.replies ++
          [.close t.handle]) := by
  have hloaded := loaded path database e
  constructor
  · intro fault e' hload
    rw [hload] at hloaded
    cases hloaded with
    | uncalled => exact .inl rfl
    | refused _ hevents => exact .inr hevents
  · intro t e' hload
    rw [hload] at hloaded
    cases hloaded with
    | opened hevents hreplies hhandle hnonneg hopen =>
      refine ⟨hhandle, hnonneg, fun calls => ?_⟩
      rw [← Engine.executed_of_opening hevents, ← hevents, ← hreplies]
      exact events_performAndDrop hopen calls

/-- A library that has one reply, returns a null pointer, and has another reply. -/
def halfSilent : Engine :=
  ⟨"lib.so", .library, [], "", [7], [some (Utf8.encode "a"), none, some (Utf8.encode "b")], []⟩

/-- A command with NUL on the way, and a close with more calls after it. -/
def interrupted : List TransportCall :=
  [.send (Utf8.encode "X\n"), .receive, .send (Utf8.encode "N\x00\n"), .send (Utf8.encode "Y\n"),
    .terminate, .close, .send (Utf8.encode "Z\n"), .receive, .close]

/-- The reply is given back, the null pointer is not, and the handle is closed once. -/
theorem halfSilent_called_in_order :
    ∃ t e', load "lib.so" .memory halfSilent = (.ok t, e') ∧
      (TransportCall.performAndDrop interrupted t).engine.events =
        [.openMemory, .execute 7 (Utf8.encode "X"), .free 0, .execute 7 (Utf8.encode "Y"),
          .close 7] := by
  refine ⟨_, _, rfl, ?_⟩
  rw [((library_called_in_order "lib.so" .memory halfSilent).2 _ _ rfl).2.2 interrupted]
  decide

end Embedded
end DbClient
