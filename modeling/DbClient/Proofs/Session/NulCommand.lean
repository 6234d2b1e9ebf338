import DbClient.Proofs.Session.Connections
import DbClient.Proofs.Session.LibraryReplies

/-!
# Commands with NUL

A library takes its commands as text that ends at the first NUL, so its transport refuses
a frame with one. The session hears of it as a failure of the channel: it gives up a
connection that nothing was wrong with, unless a newline has had the command refused before.
-/

namespace DbClient

open Client (SameChannel)

/-- What sending fails with when the command has a NUL. -/
def nulInCommand : IoError :=
  ⟨.invalidInput, "command contains a NUL byte"⟩

theorem Embedded.send_of_nul {command : Bytes} (h : 0 ∈ command) (t : Embedded) :
    t.send (command ++ [delimiter]) = (.error nulInCommand, t) := by
  simp [Embedded.send, commandOf_frame, h, nulInCommand]

namespace Client

variable {c : Client Host} {t : Embedded} {network : Network} {command : String}

/-! ## Giving up a library -/

/-- A command with NUL does not reach the library, and yet the connection is given up. -/
theorem exchange_of_nul (hopen : c.session.isOpen = true) (hlink : c.link = .embedded t network)
    (hnul : 0 ∈ Utf8.encode command) (hmem : delimiter ∉ Utf8.encode command) (label : String) :
    exchange command label c = (.error (.transport label nulInCommand), c.abandon) := by
  have hsend : Transport.send (frameOf command) c.link = (.error nulInCommand, c.link) := by
    rw [hlink]
    show Host.send _ _ = _
    rw [Host.send, frameOf, Embedded.send_of_nul hnul]
  rw [exchange_of_unsent hmem hopen hsend]

/-- All that the library is asked then is to close its database. -/
theorem engineEvents_abandon (hopen : c.session.isOpen = true)
    (hlink : c.link = .embedded t network) (hloaded : t.isOpen = true) :
    c.abandon.link.engineEvents = c.link.engineEvents ++ [.close t.handle] := by
  rw [abandon, if_pos hopen, hlink]
  show (Host.close (.embedded t network)).engineEvents = _
  simp [Host.close, Host.release, Host.engineEvents, Embedded.close, hloaded, Engine.close,
    Engine.note]

/-- Whatever call issues a command with NUL over a library, if the merge state allows the
command: with a newline besides it is refused as a command, the channel is left alone, and
so is the merge state unless the command is an abort. Without a newline the call fails as
if the channel had, the library's database is closed, and every command after that is
refused until the session is opened again. The library executes nothing in either case. -/
theorem nul_loses_connection (hopen : c.session.isOpen = true)
    (hlink : c.link = .embedded t network) (hloaded : t.isOpen = true)
    (hnul : 0 ∈ Utf8.encode command) (hmay : c.forbids command = false) {r : Request}
    {s : SingleCall} (hsingle : r.single? = some s) (hcommand : s.command = .ok command) :
    let d := (r.perform c).2
    (delimiter ∈ Utf8.encode command →
      (r.perform c).1 = .error (.usage (.invalidCommand .newline)) ∧ SameChannel d c ∧
        (CommandClass.of command ≠ .abortMerge → d = c)) ∧
    (delimiter ∉ Utf8.encode command →
      (r.perform c).1 = .error (.transport (s.label command) nulInCommand) ∧ d = c.abandon ∧
        d.link.engineEvents = c.link.engineEvents ++ [.close t.handle] ∧
        ∀ (later : String) (q : Request), q = .execute later ∨ q = .raw later →
          q.perform d = (.error (.usage .notConnected), d)) := by
  intro d
  have hperform := Request.perform_of_admitted hsingle hcommand
    (admitted_of_not_forbids hopen hmay)
  constructor
  · intro hmem
    rw [exchange_of_newline hmem] at hperform
    have hd : d = c.withMerge (r.follow command _ c.session.merge) := congrArg Prod.snd hperform
    refine ⟨congrArg Prod.fst hperform, by rw [hd]; exact .withMerge _ c, ?_⟩
    intro habort
    rw [hd, Request.follow_error (.inl habort)]
    rfl
  · intro hmem
    rw [exchange_of_nul hopen hlink hnul hmem] at hperform
    have hd : d = c.abandon := by
      have hleft := congrArg Prod.snd hperform
      dsimp only at hleft
      rwa [merge_abandon, Request.follow_error (.inr rfl)] at hleft
    refine ⟨congrArg Prod.fst hperform, hd, ?_, ?_⟩
    · rw [hd]
      exact engineEvents_abandon hopen hlink hloaded
    · intro later q hq
      exact perform_of_closed hq (by rw [hd]; rfl)

def nulCommand : String := "SELECT \x00"

/-- A client over a library that would answer gives it up for a command with NUL. -/
theorem nulCommand_loses_connection :
    let c := overLibrary [soundReply]
    let x := (Request.execute nulCommand).perform c
    x.1 = .error (.transport nulCommand nulInCommand) ∧ x.2 = c.abandon ∧
      (Request.raw "SELECT 1").perform x.2 = (.error (.usage .notConnected), x.2) := by
  intro c x
  have hlibrary : OverLibrary [soundReply] 0 c :=
    overLibrary_of_connect (c := toLibrary [soundReply]) rfl rfl rfl
  obtain ⟨t, network, hlink, hloaded, -⟩ := hlibrary.link
  have hnul : 0 ∈ Utf8.encode nulCommand := by decide
  have hmay : c.forbids nulCommand = false := by decide
  obtain ⟨houtcome, hleft, -, hrefused⟩ := (nul_loses_connection hlibrary.isOpen hlink hloaded
    hnul hmay (r := .execute nulCommand) rfl rfl).2 (by decide)
  exact ⟨houtcome, hleft, hrefused "SELECT 1" _ (.inr rfl)⟩

/-- A command with NUL is not always refused as an invalid command. -/
theorem nul_not_always_invalid_command :
    ¬∀ (c : Client Host) (t : Embedded) (network : Network) (command : String),
      c.session.isOpen = true → c.link = .embedded t network → t.isOpen = true →
      0 ∈ Utf8.encode command → c.forbids command = false →
        let x := (Request.execute command).perform c
        (∃ fault, x.1 = .error (.usage (.invalidCommand fault))) ∧ x.2.link = c.link ∧
          x.2.session.isOpen = c.session.isOpen ∧ x.2.session.merge = c.session.merge := by
  intro h
  have hlibrary : OverLibrary [soundReply] 0 (overLibrary [soundReply]) :=
    overLibrary_of_connect (c := toLibrary [soundReply]) rfl rfl rfl
  obtain ⟨t, network, hlink, hloaded, -⟩ := hlibrary.link
  obtain ⟨⟨fault, hfault⟩, -⟩ := h _ t network nulCommand hlibrary.isOpen hlink hloaded (by decide)
    (by decide)
  have hlost : ((Request.execute nulCommand).perform (overLibrary [soundReply])).1 =
      .error (.transport nulCommand nulInCommand) := by rfl
  rw [hlost] at hfault
  cases hfault

end Client
end DbClient
