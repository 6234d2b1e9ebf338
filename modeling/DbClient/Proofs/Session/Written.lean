import DbClient.Proofs.Command.Intended
import DbClient.Proofs.Session.Guard
import DbClient.Proofs.Text.RoundTrip

/-!
# Commands that the client writes

The calls with a statement of their own issue its text and no other. What the guard sees is the
class that the statement is written for, and a branch that a call names never keeps its command
from being framed.
-/

namespace DbClient

theorem encodeCommand_of_newline_notMem {command : String} (h : '\n' ∉ command.toList) :
    encodeCommand command = .ok (frameOf command) :=
  encodeCommand_of_notMem fun hmem => h (Utf8.ofNat_mem_of_mem_encode (by decide) hmem)

/-! ## Calls that write a statement -/

namespace Request

/-- The statement that a call writes. A login writes one only with a token that is accepted,
and settling a whole list of conflicts writes many. -/
def statement? : Request → Option Statement
  | createDatabase name => some (.createDatabase name)
  | dropDatabase name => some (.dropDatabase name)
  | createTable database table columns => some (.createTable database table columns)
  | dropTable database table => some (.dropTable database table)
  | insert database table columns values => some (.insert database table columns values)
  | showDatabases => some .showDatabases
  | showTables database => some (.showTables database)
  | showBranches | currentBranch => some .showBranches
  | authenticate token => (checkToken token).toOption.map .authenticate
  | createBranch name => some (.createBranch name)
  | checkout name => some (.checkout name)
  | merge branch => some (.merge branch)
  | mergeManual branch => some (.mergeManual branch)
  | conflicts => some .showConflicts
  | resolve conflict resolution => some (.resolve conflict resolution)
  | commitMerge => some .commitMerge
  | abortMerge => some .abortMerge
  | connect | close | execute _ | query _ | mutation _ | raw _ | resolveAll _ => none

/-- A call that writes a statement issues its text, unless the branch that it names is refused. -/
theorem exists_single_of_statement {r : Request} {s : Statement} (h : r.statement? = some s)
    (hs : s.BranchAccepted) : ∃ call, r.single? = some call ∧ call.command = .ok s.text := by
  cases r with
  | connect | close | execute | query | mutation | raw | resolveAll => cases h
  | authenticate token =>
    obtain ⟨word, hword, rfl⟩ := Option.map_eq_some_iff.1 h
    refine ⟨_, rfl, ?_⟩
    cases hcheck : checkToken token with
    | error e => simp [hcheck, Except.toOption] at hword
    | ok accepted =>
      obtain rfl : accepted = word := by simpa [hcheck, Except.toOption] using hword
      simp only [SingleCall.login, hcheck]
      rfl
  | createBranch name | checkout name | merge name | mergeManual name =>
    cases h
    refine ⟨_, rfl, ?_⟩
    simp only [SingleCall.typed, TypedCall.withBranch, hs name rfl]
    rfl
  | _ =>
    cases h
    exact ⟨_, rfl, rfl⟩

variable {τ : Type} [Endpoint τ]

/-- On an open client the call is refused where the guard forbids the class of the statement,
and hands the frame of the statement over everywhere else, if it has one. -/
theorem perform_statement {r : Request} {s : Statement} {c : Client (Recorder τ)}
    (h : r.statement? = some s) (hs : s.BranchAccepted) (hopen : c.session.isOpen = true) :
    if c.session.merge = .pending ∧ s.intendedClass.isGuarded = true then
      r.perform c = (.error (.usage (.mergePending s.text)), c)
    else
      (r.perform c).2.link.frames = c.link.frames ++ (encodeCommand s.text).toOption.toList := by
  obtain ⟨call, hcall, hcommand⟩ := exists_single_of_statement h hs
  have hforbids : c.forbids s.text = true ↔
      c.session.merge = .pending ∧ s.intendedClass.isGuarded = true := by
    simp [Client.forbids, Statement.class_text hs]
  split
  · next hguard =>
    exact perform_of_refused hcall hcommand (Client.refusal?_of_forbids hopen (hforbids.2 hguard))
  · next hguard =>
    have hmay : c.forbids s.text = false := Bool.eq_false_iff.2 (mt hforbids.1 hguard)
    rw [perform_of_admitted hcall hcommand (Client.admitted_of_not_forbids hopen hmay),
      toList_encodeCommand]
    exact Client.frames_exchange_of_open hopen

/-- What the call hands over is the frame of the statement, where it is not refused and the
statement is one line. -/
theorem handed_statement {r : Request} {s : Statement} (h : r.statement? = some s)
    (hs : s.BranchAccepted) (c : Client (Recorder τ)) :
    Step.handed ⟨r, c⟩ =
      if c.refusal? s.text = none ∧ delimiter ∉ Utf8.encode s.text then [frameOf s.text]
      else [] := by
  obtain ⟨call, hcall, hcommand⟩ := exists_single_of_statement h hs
  apply Step.handed_eq
  cases hrefusal : c.refusal? s.text with
  | some e =>
    rw [Step.left, perform_of_refused hcall hcommand hrefusal]
    simp
  | none =>
    rw [Step.left, perform_of_admitted hcall hcommand hrefusal]
    refine (Client.frames_exchange_of_open (Client.isOpen_of_admitted hrefusal)).trans ?_
    by_cases hline : delimiter ∈ Utf8.encode s.text <;> simp [hline]

theorem eq_frameOf_of_handed {r : Request} {s : Statement} (h : r.statement? = some s)
    (hs : s.BranchAccepted) {c : Client (Recorder τ)} {frame : Bytes}
    (hsent : Step.handed ⟨r, c⟩ = [frame]) : frame = frameOf s.text := by
  rw [handed_statement h hs] at hsent
  split at hsent
  · exact (List.singleton_inj.1 hsent).symm
  · cases hsent

end Request

namespace Statement

variable (τ : Type) [Endpoint τ]

/-- Whatever its arguments are, a statement is of the class that it is written for, as long as
the name of a branch in it is accepted; then it is one line too. The calls that write the
statement issue this text and no other: on an open client they are refused, and hand nothing
over, if the guard forbids the class, and hand the frame of the text over if not. -/
theorem written_as_intended (s : Statement) (h : s.BranchAccepted) :
    CommandClass.of s.text = s.intendedClass ∧
      (∀ name ∈ s.branch?,
        '\n' ∉ s.text.toList ∧ encodeCommand s.text = .ok (frameOf s.text)) ∧
      ∀ (r : Request) (c : Client (Recorder τ)), r.statement? = some s →
        c.session.isOpen = true →
        if c.session.merge = .pending ∧ s.intendedClass.isGuarded = true then
          r.perform c = (.error (.usage (.mergePending s.text)), c)
        else
          (r.perform c).2.link.frames =
            c.link.frames ++ (encodeCommand s.text).toOption.toList := by
  refine ⟨class_text h, ?_, fun r c hr hopen => Request.perform_statement hr h hopen⟩
  intro name hname
  have hline := newline_notMem_text h hname
  exact ⟨hline, encodeCommand_of_newline_notMem hline⟩

/-- A manual merge is written as one, and is sent while no merge is open. -/
theorem mergeManual_written_as_intended :
    let c : Client (Recorder Scripted) := .attach .default (.start (.start [] []))
    CommandClass.of (mergeManual "WITH").text = .manualMerge ∧
      '\n' ∉ (mergeManual "WITH").text.toList ∧
      ((Request.mergeManual "WITH").perform c).2.link.frames =
        [frameOf "MERGE WITH WITH MANUAL RESOLUTION"] := by
  intro c
  have haccepted : (mergeManual "WITH").BranchAccepted := by
    rintro name ⟨⟩
    rfl
  obtain ⟨hclass, hline, hperform⟩ := written_as_intended Scripted (mergeManual "WITH") haccepted
  obtain ⟨hnewline, hencode⟩ := hline "WITH" rfl
  refine ⟨hclass, hnewline, ?_⟩
  have hsent := hperform (.mergeManual "WITH") c rfl rfl
  rw [if_neg (by decide), hencode] at hsent
  exact hsent

end Statement
end DbClient
