import DbClient.Proofs.Session.Executed
import DbClient.Proofs.Session.Steps
import DbClient.Transport.Scripted

/-!
# The history of a merge

Whether the session takes a merge to be open can be told from the steps of a run: one of
them has opened it, and none after that has ended it. What carries this is that a step
either leaves the merge state alone, or ends a merge, or has the outcome of a command
followed; and that an open merge needs an open session.
-/

namespace DbClient

open ClientError (IsViewFault)
open FrameBuffer (IsChannelFailure)

variable {τ : Type}

/-- The command that a typed call issues, unless its arguments are refused. -/
def Request.command? (r : Request) : Option String :=
  r.typed?.bind (·.command.toOption)

namespace Step

variable [Endpoint τ]

/-! ## Events -/

/-- A step that issues a command of a class, is admitted and has this typed outcome. -/
def Executes (p : Step τ) (cls : CommandClass) (outcome : Except ClientError ExecuteResult) :
    Prop :=
  ∃ command, p.request.command? = some command ∧
    Client.permit command p.client = (.ok cls, p.client) ∧
    (Client.execute command p.client).1 = outcome

/-- The steps that open a merge: a manual merge that is answered by rows, and a listing
of conflicts that has some. -/
inductive OpensMerge (p : Step τ) : Prop
  | merged {q : QueryResult} (h : p.Executes .manualMerge (.ok (.query q)))
  | listed {q : QueryResult} (h : p.Executes .showConflicts (.ok (.query q)))
    (hrows : 0 < q.length)

/-- The steps that end a merge: a commit that succeeds, an abort with any outcome, a
failure of the channel, and closing or opening the session. -/
inductive EndsMerge (p : Step τ) : Prop
  | committed {r : ExecuteResult} (h : p.Executes .commitMerge (.ok r))
  | aborted {outcome : Except ClientError ExecuteResult} (h : p.Executes .abortMerge outcome)
  | lost {label : String} {e : ClientError} (h : p.outcome = .error e)
    (he : IsChannelFailure label e)
  | closed (h : p.request = .close)
  | opened (h : p.request = .connect) (hok : p.outcome = .ok .done)

/-- A step during which the channel has not failed. -/
def KeepsChannel (p : Step τ) : Prop :=
  ∀ label e, p.outcome = .error e → ¬IsChannelFailure label e

theorem Executes.unique {p : Step τ} {cls cls' : CommandClass}
    {outcome outcome' : Except ClientError ExecuteResult} (h : p.Executes cls outcome)
    (h' : p.Executes cls' outcome') : cls = cls' ∧ outcome = outcome' := by
  obtain ⟨command, hcommand, hpermit, rfl⟩ := h
  obtain ⟨command', hcommand', hpermit', rfl⟩ := h'
  rw [hcommand] at hcommand'
  cases hcommand'
  rw [hpermit] at hpermit'
  cases hpermit'
  exact ⟨rfl, rfl⟩

theorem not_executes_of_none {p : Step τ} (h : p.request.command? = none) (cls : CommandClass)
    (outcome : Except ClientError ExecuteResult) : ¬p.Executes cls outcome := by
  rintro ⟨command, hcommand, -⟩
  rw [h] at hcommand
  cases hcommand

section Deciding

variable {p : Step τ} {cls : CommandClass} {outcome : Except ClientError ExecuteResult}

theorem opensMerge_iff (h : p.Executes cls outcome) :
    p.OpensMerge ↔
      cls = .manualMerge ∧ (∃ q, outcome = .ok (.query q)) ∨
        cls = .showConflicts ∧ ∃ q, outcome = .ok (.query q) ∧ 0 < q.length := by
  constructor
  · rintro (h' | ⟨h', hrows⟩)
    · obtain ⟨rfl, rfl⟩ := h.unique h'
      exact .inl ⟨rfl, _, rfl⟩
    · obtain ⟨rfl, rfl⟩ := h.unique h'
      exact .inr ⟨rfl, _, rfl, hrows⟩
  · rintro (⟨rfl, q, rfl⟩ | ⟨rfl, q, rfl, hrows⟩)
    · exact .merged h
    · exact .listed h hrows

theorem endsMerge_iff (h : p.Executes cls outcome) (hkeeps : p.KeepsChannel) :
    p.EndsMerge ↔ cls = .abortMerge ∨ cls = .commitMerge ∧ ∃ r, outcome = .ok r := by
  constructor
  · intro hends
    cases hends with
    | committed h' =>
      obtain ⟨rfl, rfl⟩ := h.unique h'
      exact .inr ⟨rfl, _, rfl⟩
    | aborted h' => exact .inl (h.unique h').1
    | lost hfailed he => exact absurd he (hkeeps _ _ hfailed)
    | closed hrequest | opened hrequest =>
      exact absurd h (not_executes_of_none (by rw [hrequest]; rfl) _ _)
  · rintro (rfl | ⟨rfl, r, rfl⟩)
    · exact .aborted h
    · exact .committed h

theorem not_opensMerge (h : ∀ cls outcome, ¬p.Executes cls outcome) : ¬p.OpensMerge := by
  rintro (h' | ⟨h', -⟩)
  · exact h _ _ h'
  · exact h _ _ h'

theorem not_endsMerge (h : ∀ cls outcome, ¬p.Executes cls outcome) (hkeeps : p.KeepsChannel)
    (hclose : p.request ≠ .close) (hconnect : p.request = .connect → p.outcome ≠ .ok .done) :
    ¬p.EndsMerge := by
  intro hends
  cases hends with
  | committed h' | aborted h' => exact h _ _ h'
  | lost hfailed he => exact hkeeps _ _ hfailed he
  | closed hrequest => exact hclose hrequest
  | opened hrequest hok => exact hconnect hrequest hok

end Deciding

/-! ## One step -/

/-- What a step does to the merge state. -/
inductive Followed (p : Step τ) : Prop
  | unchanged (hmerge : p.left.session.merge = p.client.session.merge)
    (hopen : p.left.session.isOpen = p.client.session.isOpen)
    (hopens : ¬p.OpensMerge) (hends : ¬p.EndsMerge)
  | ended (hclean : p.left.session.merge = .clean) (hopens : ¬p.OpensMerge)
    (hends : p.EndsMerge)
  | executed {cls : CommandClass} {outcome : Except ClientError ExecuteResult}
    (h : p.Executes cls outcome)
    (hmerge : p.left.session.merge = p.client.session.merge.after cls (.of outcome))
    (hopen : p.left.session.isOpen = true) (hkeeps : p.KeepsChannel)

/-- A session in which a merge is open only while it is open itself. -/
def HoldsMergeOpen (c : Client τ) : Prop :=
  c.session.merge = .pending → c.session.isOpen = true

theorem Followed.merge_iff {p : Step τ} (h : p.Followed) :
    p.left.session.merge = .pending ↔
      p.OpensMerge ∨ p.client.session.merge = .pending ∧ ¬p.EndsMerge := by
  cases h with
  | unchanged hmerge _ hopens hends => simp [hmerge, hopens, hends]
  | ended hclean hopens hends => simp [hclean, hopens, hends]
  | executed h hmerge _ hkeeps =>
    rw [hmerge, MergeState.after_of_eq_pending_iff, opensMerge_iff h, endsMerge_iff h hkeeps]
    simp only [not_or, or_assoc]

theorem Followed.holdsMergeOpen {p : Step τ} (h : p.Followed) (hp : HoldsMergeOpen p.client) :
    HoldsMergeOpen p.left := by
  intro hpending
  cases h with
  | unchanged hmerge hopen =>
    rw [hopen]
    exact hp (hmerge.symm.trans hpending)
  | ended hclean =>
    rw [hclean] at hpending
    cases hpending
  | executed _ _ hopen => exact hopen

theorem keepsChannel_of_usage {p : Step τ} {e : UsageError} (h : p.outcome = .error (.usage e)) :
    p.KeepsChannel := by
  intro label e' he'
  rw [h] at he'
  cases he'
  intro hfailure
  cases hfailure

/-- A call that is refused has no effect. -/
theorem followed_of_refused {p : Step τ} {e : UsageError}
    (h : p.request.perform p.client = (.error (.usage e), p.client))
    (hexec : ∀ cls outcome, ¬p.Executes cls outcome) (hclose : p.request ≠ .close) :
    p.Followed := by
  have hleft : p.left = p.client := congrArg Prod.snd h
  have houtcome : p.outcome = .error (.usage e) := congrArg Prod.fst h
  refine .unchanged (by rw [hleft]) (by rw [hleft]) (not_opensMerge hexec) ?_
  apply not_endsMerge hexec (keepsChannel_of_usage houtcome) hclose
  intro _ hok
  rw [houtcome] at hok
  cases hok

/-- A call that executes a command has the outcome followed. -/
theorem followed_issued {p : Step τ} {command : String}
    {view : ExecuteResult → Except ClientError Answer}
    (hcommand : p.request.command? = some command) (hclose : p.request ≠ .close)
    (hcall : p.request.perform p.client =
      ((Client.execute command p.client).1.bind view, (Client.execute command p.client).2))
    (hview : ∀ r, FailsOnly IsViewFault (view r)) : p.Followed := by
  have hexecutes : p.client.refusal? command = none →
      p.Executes (.of command) (Client.execute command p.client).1 :=
    fun hr => ⟨command, hcommand, Client.permit_eq_ok_iff.2 ⟨hr, rfl⟩, rfl⟩
  have houtcome : p.outcome = (Client.execute command p.client).1.bind view :=
    congrArg Prod.fst hcall
  have hleft : p.left = (Client.execute command p.client).2 := congrArg Prod.snd hcall
  have hexecuted := Client.execute_executed command p.client
  generalize Client.execute command p.client = reply at *
  cases hexecuted with
  | @refused e hr =>
    refine followed_of_refused (e := e) hcall ?_ hclose
    rintro cls outcome ⟨command', hcommand', hpermit, -⟩
    rw [hcommand] at hcommand'
    cases hcommand'
    rw [(Client.permit_eq_ok_iff.1 hpermit).1] at hr
    cases hr
  | unframed hr =>
    have hopen := Client.isOpen_of_admitted hr
    refine .executed (hexecutes hr) ?_ ?_ (keepsChannel_of_usage houtcome)
    · rw [hleft, Client.merge_track, Reply.of]
    · rw [hleft, Client.isOpen_track, hopen]
  | lost hr he _ hclean =>
    refine .ended (by rw [hleft]; exact hclean) ?_ (.lost houtcome he)
    rw [opensMerge_iff (hexecutes hr)]
    simp
  | answered hr hx =>
    obtain ⟨-, hopen, hmerge⟩ := Client.notMem_of_exchange_ok hx
    refine .executed (hexecutes hr) (by rw [hleft, Client.merge_track, hmerge])
      (by rw [hleft, Client.isOpen_track, hopen]) ?_
    -- neither a reply line nor a view of its result is a failure of the channel
    intro label e he
    rw [houtcome] at he
    rcases hread : readResult command _ with e' | r <;> rw [hread] at he
    · cases he
      exact (readResult_fails _ _ _ hread).not_isChannelFailure
    · exact (hview r e he).not_isChannelFailure

theorem followed_typed {p : Step τ} {t : TypedCall Answer} (h : p.request.typed? = some t) :
    p.Followed := by
  have hclose : p.request ≠ .close := by
    intro hrequest
    rw [hrequest] at h
    cases h
  have hcommand : p.request.command? = t.command.toOption := by
    rw [Request.command?, h, Option.bind_some]
  have hcall : p.request.perform p.client = t.perform p.client := by
    rw [Request.perform_typed h]
  cases ht : t.command with
  | error misuse =>
    rw [ht] at hcommand
    refine followed_of_refused (e := misuse) ?_ (not_executes_of_none hcommand) hclose
    rw [hcall]
    simp only [TypedCall.perform, ht]
  | ok command =>
    rw [ht] at hcommand
    refine followed_issued hcommand hclose ?_ (Request.failsOnView h)
    rw [hcall]
    simp only [TypedCall.perform, ht]

theorem followed_authenticate {p : Step τ} {token : String} (h : p.request = .authenticate token) :
    p.Followed := by
  have hclose : p.request ≠ .close := by simp [h]
  have hexec : ∀ cls outcome, ¬p.Executes cls outcome :=
    not_executes_of_none (by rw [h]; rfl)
  have hcall : p.request.perform p.client =
      ((Client.authenticate token p.client).1.map .auth,
        (Client.authenticate token p.client).2) := by
    rw [h, Request.perform, Call.map_apply]
  cases hcheck : checkToken token with
  | error misuse =>
    refine followed_of_refused (e := misuse) ?_ hexec hclose
    rw [hcall, Client.authenticate_of_refused hcheck]
    rfl
  | ok word =>
    cases hopen : p.client.session.isOpen with
    | false =>
      refine followed_of_refused (e := .notConnected) ?_ hexec hclose
      rw [hcall, Client.authenticate_of_closed hcheck hopen]
      rfl
    | true =>
      rw [Client.authenticate_of_admitted hcheck hopen] at hcall
      dsimp only at hcall
      rcases hx : Client.exchange (Statement.authenticate word).text Client.authLabel p.client with
        ⟨e | line, c'⟩
      · rw [hx] at hcall
        rcases Client.exchange_error_of_open hx hopen with
          ⟨-, rfl, rfl⟩ | ⟨-, he, -, hclean⟩
        · exact followed_of_refused hcall hexec hclose
        · have hleft : p.left = c' := congrArg Prod.snd hcall
          exact .ended (by rw [hleft]; exact hclean) (not_opensMerge hexec)
            (.lost (congrArg Prod.fst hcall) he)
      · rw [hx] at hcall
        have hleft : p.left = c' := congrArg Prod.snd hcall
        have houtcome : p.outcome = (readAuth Client.authLabel line).map .auth :=
          congrArg Prod.fst hcall
        obtain ⟨-, hopen', hmerge⟩ := Client.notMem_of_exchange_ok hx
        refine .unchanged (by rw [hleft]; exact hmerge) (by rw [hleft, hopen', hopen])
          (not_opensMerge hexec) (not_endsMerge hexec ?_ hclose (by simp [h]))
        intro label e he
        rw [houtcome] at he
        exact ((readAuth_fails _ line).map _ e he).not_isChannelFailure

theorem followed_close {p : Step τ} (h : p.request = .close) (hp : HoldsMergeOpen p.client) :
    p.Followed := by
  have hexec : ∀ cls outcome, ¬p.Executes cls outcome :=
    not_executes_of_none (by rw [h]; rfl)
  have hleft : p.left = p.client.close := by
    rw [left, h]
    rfl
  refine .ended ?_ (not_opensMerge hexec) (.closed h)
  rw [hleft, Client.close]
  split
  · rfl
  · rename_i hclosed
    cases hmerge : p.client.session.merge with
    | clean => rfl
    | pending => exact absurd (hp hmerge) hclosed

theorem followed_connect {p : Step τ} (h : p.request = .connect) (hp : HoldsMergeOpen p.client) :
    p.Followed := by
  have hexec : ∀ cls outcome, ¬p.Executes cls outcome :=
    not_executes_of_none (by rw [h]; rfl)
  have hcall : p.request.perform p.client =
      ((Client.connect p.client).1.map fun _ => .done, (Client.connect p.client).2) := by
    rw [h, Request.perform_connect]
  have hcases := Client.connect_opening p.client
  generalize Client.connect p.client = reply at hcall hcases
  cases hcases with
  | already => exact followed_of_refused (e := .alreadyOpen) hcall hexec (by simp [h])
  | failed hclosed =>
    have hsession : p.left.session = p.client.session :=
      congrArg (fun reply => Client.session (Prod.snd reply)) hcall
    -- a closed session holds no merge open
    have hclean : p.client.session.merge = .clean := by
      cases hmerge : p.client.session.merge with
      | clean => rfl
      | pending =>
        rw [hp hmerge] at hclosed
        cases hclosed
    by_cases hends : p.EndsMerge
    · exact .ended (by rw [hsession, hclean]) (not_opensMerge hexec) hends
    · exact .unchanged (by rw [hsession]) (by rw [hsession]) (not_opensMerge hexec) hends
  | opened =>
    have hleft : p.left.session.merge = .clean :=
      congrArg (fun reply => (Client.session (Prod.snd reply)).merge) hcall
    exact .ended hleft (not_opensMerge hexec) (.opened h (congrArg Prod.fst hcall))

/-- Every step has its effect followed, unless its reply is taken raw. -/
theorem followed {p : Step τ} (hraw : ∀ command, p.request ≠ .raw command)
    (hstep : ∀ resolution, p.request ≠ .resolveAll resolution) (hp : HoldsMergeOpen p.client) :
    p.Followed := by
  cases h : p.request with
  | connect => exact followed_connect h hp
  | close => exact followed_close h hp
  | raw command => exact absurd h (hraw command)
  | authenticate token => exact followed_authenticate h
  | resolveAll resolution => exact absurd h (hstep resolution)
  | _ => exact followed_typed (by rw [h]; rfl)

/-! ## Runs -/

/-- A merge is open after a chain of steps if one of them has opened it and none later
has ended it, or if it was open before and none has ended it. -/
theorem Chain.merge_iff {c d : Client τ} {ps : List (Step τ)} (h : Chain c ps d)
    (hsteps : ∀ p ∈ ps, HoldsMergeOpen p.client → p.Followed) (hc : HoldsMergeOpen c) :
    d.session.merge = .pending ↔
      (c.session.merge = .pending ∧ ∀ q ∈ ps, ¬q.EndsMerge) ∨
        ∃ before p after, ps = before ++ p :: after ∧ p.OpensMerge ∧ ∀ q ∈ after, ¬q.EndsMerge := by
  induction ps generalizing c with
  | nil =>
    cases h
    simp
  | cons p ps ih =>
    obtain ⟨rfl, hrest⟩ := h
    obtain ⟨hp, hps⟩ := List.forall_mem_cons.1 hsteps
    have hfollowed := hp hc
    rw [ih hrest hps (hfollowed.holdsMergeOpen hc), hfollowed.merge_iff]
    constructor
    · rintro (⟨hopens | ⟨hpending, hnot⟩, hall⟩ | ⟨before, q, after, rfl, hq, hall⟩)
      · exact .inr ⟨[], p, ps, rfl, hopens, hall⟩
      · exact .inl ⟨hpending, List.forall_mem_cons.2 ⟨hnot, hall⟩⟩
      · exact .inr ⟨p :: before, q, after, rfl, hq, hall⟩
    · rintro (⟨hpending, hall⟩ | ⟨before, q, after, heq, hq, hall⟩)
      · obtain ⟨hnot, hall⟩ := List.forall_mem_cons.1 hall
        exact .inl ⟨.inr ⟨hpending, hnot⟩, hall⟩
      · cases before with
        | nil =>
          -- the step that opened the merge is the first one
          obtain ⟨rfl, rfl⟩ := List.cons.inj heq
          exact .inl ⟨.inl hq, hall⟩
        | cons b before =>
          obtain ⟨-, hrest⟩ := List.cons.inj heq
          exact .inr ⟨before, q, after, hrest, hq, hall⟩

end Step

namespace Client

variable [Endpoint τ]

/-- From a session without a merge, a run that takes no reply raw leaves a merge open if
and only if one of its steps has opened a merge and no later step has ended it. -/
theorem pending_iff_opened_and_not_ended {rs : List Request} {c : Client τ}
    (hclean : c.session.merge = .clean) (hrs : ∀ r ∈ rs, ∀ command, r ≠ .raw command) :
    Step.Chain c (steps rs c) (run rs c).2 ∧
      ((run rs c).2.session.merge = .pending ↔
        ∃ before p after, steps rs c = before ++ p :: after ∧ p.OpensMerge ∧
          ∀ q ∈ after, ¬q.EndsMerge) := by
  have hchain := chain_steps rs c
  have hkind : ∀ p ∈ steps rs c, (∀ command, p.request ≠ .raw command) ∧
      ∀ resolution, p.request ≠ .resolveAll resolution :=
    forall_mem_steps
      (Q := fun r => (∀ command, r ≠ .raw command) ∧ ∀ resolution, r ≠ .resolveAll resolution)
      (by simp) (by simp) fun r hr hnot => ⟨hrs r hr, hnot⟩
  have hholds : Step.HoldsMergeOpen c := by
    intro hpending
    rw [hclean] at hpending
    cases hpending
  refine ⟨hchain, ?_⟩
  rw [hchain.merge_iff (fun p hp => Step.followed (hkind p hp).1 (hkind p hp).2) hholds, hclean]
  simp

/-- A client over a script that answers a manual merge with a conflict, and rejects the
commit after it. -/
def beforeRejectedCommit : Client Scripted :=
  let conflict := "\x7b\"success\":true,\"type\":\"query\",\"result\":" ++
    "\x7b\"columns\":[\"Key\"],\"data\":[[\"1\"]]\x7d\x7d\n"
  let rejection := "\x7b\"success\":false,\"error\":\"conflicts remain\"\x7d\n"
  attach .default (.start [.ok (Utf8.encode conflict), .ok (Utf8.encode rejection)] [])

/-- A commit that is rejected leaves the merge open, as the history says. -/
theorem pending_after_rejected_commit :
    let rs := [.execute "MERGE b WITH MANUAL RESOLUTION", .commitMerge]
    (run rs beforeRejectedCommit).2.session.merge = .pending ∧
      ∃ before p after, steps rs beforeRejectedCommit = before ++ p :: after ∧ p.OpensMerge ∧
        ∀ q ∈ after, ¬q.EndsMerge := by
  intro rs
  have hpending : (run rs beforeRejectedCommit).2.session.merge = .pending := by decide +kernel
  exact ⟨hpending, (pending_iff_opened_and_not_ended rfl (by simp [rs])).2.1 hpending⟩

end Client
end DbClient
