import DbClient.Proofs.Command.Intended
import DbClient.Proofs.Session.Teardown

/-!
# Settling every listed conflict

The conflicts are listed once. Then one command is issued for each row of the listing, in its
order, up to the first that fails, and nothing is sent for the rows behind that one. While the
connection lasts, a merge of which a conflict has been listed stays open.
-/

namespace DbClient

variable {τ : Type}

namespace Client

/-! ## The listing -/

section Listing

variable [Transport τ] {c c' : Client τ} {q : QueryResult} {listed : List MergeConflict}

/-- The conflicts that the server lists to a client, one for each row of its reply and in their
order, with the client after the reply. -/
structure Listed (c : Client τ) (q : QueryResult) (listed : List MergeConflict) (c' : Client τ) :
    Prop where
  reply : execute Statement.showConflicts.text c = (.ok (.query q), c')
  rows : List.Forall₂
    (fun row conflict => MergeConflict.ofRow Statement.showConflicts.text row = .ok conflict)
    q.walk.toList listed

theorem Listed.length_eq (h : Listed c q listed c') : listed.length = q.length := by
  rw [← h.rows.length_eq]
  exact List.length_map _

theorem conflicts_apply (c : Client τ) :
    conflicts c =
      (((execute Statement.showConflicts.text c).1.bind (·.asQuery)).bind
          (MergeConflict.ofListing · Statement.showConflicts.text),
        (execute Statement.showConflicts.text c).2) := by
  rw [conflicts, Call.bind_ofExcept_apply, query_apply]

theorem conflicts_eq_ok_iff :
    conflicts c = (.ok listed, c') ↔ ∃ q, Listed c q listed c' := by
  rw [conflicts_apply]
  constructor
  · intro h
    obtain ⟨hlisting, rfl⟩ := Prod.mk.inj h
    obtain ⟨q, hq, hrows⟩ := exists_of_bind_ok hlisting
    obtain ⟨r, hr, hview⟩ := exists_of_bind_ok hq
    cases r with
    | commit s => cases hview
    | query q' =>
      cases hview
      exact ⟨q, Prod.ext hr rfl, mapM_eq_ok_iff.1 hrows⟩
  · rintro ⟨q, hreply, hrows⟩
    rw [hreply]
    exact congrArg (·, c') (mapM_eq_ok_iff.2 hrows)

/-- A listing with a row leaves a merge open, whether or not its rows can be read. -/
theorem pending_of_listed_row (h : execute Statement.showConflicts.text c = (.ok (.query q), c'))
    (hrow : 0 < q.length) : c'.session.isOpen = true ∧ c'.session.merge = .pending := by
  have hclass : CommandClass.of Statement.showConflicts.text = .showConflicts := by decide +kernel
  have hcases := execute_executed Statement.showConflicts.text c
  rw [h] at hcases
  generalize hr : (.ok (.query q) : Except ClientError ExecuteResult) = reply at hcases
  cases hcases with
  | refused | unframed | lost => cases hr
  | answered _ hx =>
    rw [isOpen_track, merge_track, hclass, ← hr, MergeState.after_of_eq_pending_iff]
    exact ⟨(notMem_of_exchange_ok hx).2.1, .inr (.inl ⟨rfl, q, rfl, hrow⟩)⟩

end Listing

/-! ## What is handed over -/

/-- On an open client a command that the guard knows nothing of is handed over, if it has a
frame. -/
theorem frames_execute_of_unguarded [Transport τ] {command : String} {c : Client (Recorder τ)}
    (hopen : c.session.isOpen = true) (h : (CommandClass.of command).isGuarded = false) :
    (execute command c).2.link.frames =
      c.link.frames ++ (encodeCommand command).toOption.toList := by
  have hadmitted := admitted_of_not_forbids hopen (not_forbids_of_unguarded h c)
  rw [(execute_channel hadmitted).link, frames_exchange_of_open hopen, toList_encodeCommand]

/-- The listing is asked for by every open client. -/
theorem frames_conflicts [Transport τ] {c : Client (Recorder τ)} (hopen : c.session.isOpen = true) :
    (conflicts c).2.link.frames = c.link.frames ++ [frameOf Statement.showConflicts.text] := by
  rw [conflicts_apply, frames_execute_of_unguarded hopen (by decide +kernel)]
  rfl

/-! ## Settling one after another -/

section Settling

variable [Transport τ] {resolution : Resolution} {listed : List MergeConflict}
  {conflict : MergeConflict}

/-- The command that settles a conflict. -/
def settling (resolution : Resolution) (conflict : MergeConflict) : String :=
  (Statement.resolve conflict resolution).text

/-- Whether the conflicts of a list can be settled one after another, each on the client that
the one before it has left. -/
def Settles (resolution : Resolution) : List MergeConflict → Client τ → Client τ → Prop
  | [], c, d => c = d
  | conflict :: rest, c, d =>
    ∃ o c', resolve conflict resolution c = (.ok o, c') ∧ Settles resolution rest c' d

theorem class_settling (resolution : Resolution) (conflict : MergeConflict) :
    CommandClass.of (settling resolution conflict) = .resolveConflict :=
  Statement.class_text (s := .resolve conflict resolution) (by rintro _ ⟨⟩)

theorem resolve_apply (c : Client τ) :
    resolve conflict resolution c =
      ((execute (settling resolution conflict) c).1.map (.of conflict.path),
        (execute (settling resolution conflict) c).2) :=
  Call.map_apply _ _ c

theorem merge_resolve {c d : Client τ} {r : Except ClientError ResolveOutcome}
    (hopen : c.session.isOpen = true) (h : resolve conflict resolution c = (r, d)) :
    d.session.merge = if d.session.isOpen then c.session.merge else .clean := by
  have hclass := class_settling resolution conflict
  have hguard : (CommandClass.of (settling resolution conflict)).isGuarded = false := by
    rw [hclass]
    rfl
  have hadmitted := admitted_of_not_forbids hopen (not_forbids_of_unguarded hguard c)
  rw [resolve_apply] at h
  obtain ⟨-, rfl⟩ := Prod.mk.inj h
  apply merge_execute_of_inert hadmitted <;> rw [hclass]
  · rfl
  · simp

theorem frames_resolve {c d : Client (Recorder τ)} {r : Except ClientError ResolveOutcome}
    (hopen : c.session.isOpen = true) (h : resolve conflict resolution c = (r, d)) :
    d.link.frames =
      c.link.frames ++ (encodeCommand (settling resolution conflict)).toOption.toList := by
  rw [resolve_apply] at h
  obtain ⟨-, rfl⟩ := Prod.mk.inj h
  exact frames_execute_of_unguarded hopen (by rw [class_settling]; rfl)

theorem isOpen_of_resolve_ok {c d : Client τ} {o : ResolveOutcome}
    (h : resolve conflict resolution c = (.ok o, d)) :
    d.session.isOpen = true ∧
      encodeCommand (settling resolution conflict) = .ok (frameOf (settling resolution conflict)) := by
  rw [resolve_apply] at h
  obtain ⟨houtcome, rfl⟩ := Prod.mk.inj h
  obtain ⟨r, hr, -⟩ := exists_of_map_ok houtcome
  exact isOpen_of_execute_ok (Prod.ext hr rfl)

/-- Settling a list keeps the session open and the merge as it is. -/
theorem Settles.merge_eq {c d : Client τ} (h : Settles resolution listed c d)
    (hopen : c.session.isOpen = true) :
    d.session.isOpen = true ∧ d.session.merge = c.session.merge := by
  induction listed generalizing c with
  | nil =>
    cases h
    exact ⟨hopen, rfl⟩
  | cons conflict rest ih =>
    obtain ⟨o, c', hresolve, hrest⟩ := h
    have hopen' := (isOpen_of_resolve_ok hresolve).1
    have hmerge := merge_resolve hopen hresolve
    rw [if_pos hopen'] at hmerge
    obtain ⟨hd, hmerge'⟩ := ih hrest hopen'
    exact ⟨hd, hmerge'.trans hmerge⟩

/-- Settling a list hands one frame over for each of its conflicts, in order. -/
theorem Settles.frames {c d : Client (Recorder τ)} (h : Settles resolution listed c d)
    (hopen : c.session.isOpen = true) :
    d.link.frames = c.link.frames ++ listed.map (frameOf ∘ settling resolution) := by
  induction listed generalizing c with
  | nil =>
    cases h
    simp
  | cons conflict rest ih =>
    obtain ⟨o, c', hresolve, hrest⟩ := h
    obtain ⟨hopen', hencode⟩ := isOpen_of_resolve_ok hresolve
    rw [ih hrest hopen', frames_resolve hopen hresolve, hencode, List.append_assoc]
    rfl

theorem resolveEach_of_settles {c d : Client τ} (h : Settles resolution listed c d) :
    resolveEach resolution listed c = (.ok (), d) := by
  induction listed generalizing c with
  | nil =>
    cases h
    rfl
  | cons conflict rest ih =>
    obtain ⟨o, c', hresolve, hrest⟩ := h
    rw [resolveEach, Call.bind_apply_ok hresolve, ih hrest]

/-- Either every conflict of a list is settled, or one of them is the first that fails, and
there it ends. -/
theorem settles_or_stops (resolution : Resolution) (listed : List MergeConflict) (c : Client τ) :
    (∃ d, Settles resolution listed c d) ∨
      ∃ before conflict behind c' e d, listed = before ++ conflict :: behind ∧
        Settles resolution before c c' ∧ resolve conflict resolution c' = (.error e, d) ∧
        resolveEach resolution listed c = (.error e, d) := by
  induction listed generalizing c with
  | nil => exact .inl ⟨c, rfl⟩
  | cons conflict rest ih =>
    rcases hresolve : resolve conflict resolution c with ⟨e | o, c'⟩
    · refine .inr ⟨[], conflict, rest, c, e, c', rfl, rfl, hresolve, ?_⟩
      rw [resolveEach, Call.bind_apply_error hresolve]
    · rcases ih c' with ⟨d, hrest⟩ | ⟨before, failing, behind, c'', e, d, rfl, hbefore, hfails, heach⟩
      · exact .inl ⟨d, o, c', hresolve, hrest⟩
      · refine .inr ⟨conflict :: before, failing, behind, c'', e, d, rfl, ⟨o, c', hresolve, hbefore⟩,
          hfails, ?_⟩
        rw [resolveEach, Call.bind_apply_ok hresolve, heach]

end Settling

/-! ## Settling a listing -/

section All

variable [Transport τ]

/-- What settling every listed conflict does to an open client, with the frames that it hands
over: the conflicts cannot be listed; or each of them is settled; or one of them fails after
all before it have been settled. Then its own frame has been handed over, if it has one, and
nothing for those behind it. -/
inductive SettledListing (resolution : Resolution) (c : Client (Recorder τ)) :
    Except ClientError Nat × Client (Recorder τ) → Prop
  | unlisted {e : ClientError} {d : Client (Recorder τ)} (hlist : conflicts c = (.error e, d))
    (hframes : d.link.frames = c.link.frames ++ [frameOf Statement.showConflicts.text]) :
    SettledListing resolution c (.error e, d)
  | settled {q : QueryResult} {listed : List MergeConflict} {c' d : Client (Recorder τ)}
    (hlist : Listed c q listed c') (hsettles : Settles resolution listed c' d)
    (hframes : d.link.frames = c.link.frames ++ frameOf Statement.showConflicts.text ::
      listed.map (frameOf ∘ settling resolution)) :
    SettledListing resolution c (.ok q.length, d)
  | stopped {q : QueryResult} {before behind : List MergeConflict} {conflict : MergeConflict}
    {c' c'' d : Client (Recorder τ)} {e : ClientError}
    (hlist : Listed c q (before ++ conflict :: behind) c')
    (hsettles : Settles resolution before c' c'')
    (hfails : resolve conflict resolution c'' = (.error e, d))
    (hframes : d.link.frames = c.link.frames ++ frameOf Statement.showConflicts.text ::
      before.map (frameOf ∘ settling resolution) ++
        (encodeCommand (settling resolution conflict)).toOption.toList) :
    SettledListing resolution c (.error e, d)

theorem resolveAll_of_settles {resolution : Resolution} {c c' d : Client τ} {q : QueryResult}
    {listed : List MergeConflict} (hlist : Listed c q listed c')
    (h : Settles resolution listed c' d) :
    resolveAll resolution c = (.ok q.length, d) := by
  rw [resolveAll, Call.bind_apply_ok (conflicts_eq_ok_iff.2 ⟨q, hlist⟩), Call.map_apply,
    resolveEach_of_settles h, ← hlist.length_eq]
  rfl

theorem resolveAll_settledListing {c : Client (Recorder τ)} (hopen : c.session.isOpen = true)
    (resolution : Resolution) : SettledListing resolution c (resolveAll resolution c) := by
  have hframes := frames_conflicts hopen
  rcases hlisting : conflicts c with ⟨e | listed, c'⟩
  · rw [hlisting] at hframes
    rw [resolveAll, Call.bind_apply_error hlisting]
    exact .unlisted hlisting hframes
  · obtain ⟨q, hlist⟩ := conflicts_eq_ok_iff.1 hlisting
    have hopen' := (isOpen_of_execute_ok hlist.reply).1
    rw [hlisting] at hframes
    rcases settles_or_stops resolution listed c' with
      ⟨d, hsettles⟩ | ⟨before, conflict, behind, c'', e, d, rfl, hbefore, hfails, heach⟩
    · rw [resolveAll_of_settles hlist hsettles]
      refine .settled hlist hsettles ?_
      rw [hsettles.frames hopen', hframes, List.append_assoc]
      rfl
    · have hopen'' := (hbefore.merge_eq hopen').1
      rw [resolveAll, Call.bind_apply_ok hlisting, Call.map_apply, heach]
      refine .stopped hlist hbefore hfails ?_
      rw [frames_resolve hopen'' hfails, hbefore.frames hopen', hframes]
      simp

theorem frameOf_settling_ne (resolution : Resolution) (conflict : MergeConflict) :
    frameOf (settling resolution conflict) ≠ frameOf Statement.showConflicts.text := by
  intro h
  have hclass := class_settling resolution conflict
  rw [frameOf_injective h] at hclass
  revert hclass
  decide +kernel

/-- The conflicts are listed first, and never again. -/
theorem SettledListing.listed_once {resolution : Resolution} {c : Client (Recorder τ)}
    {r : Except ClientError Nat × Client (Recorder τ)} (h : SettledListing resolution c r) :
    ∃ frames, r.2.link.frames = c.link.frames ++ frameOf Statement.showConflicts.text :: frames ∧
      frameOf Statement.showConflicts.text ∉ frames := by
  have hmap : ∀ listed : List MergeConflict,
      frameOf Statement.showConflicts.text ∉ listed.map (frameOf ∘ settling resolution) := by
    intro listed hmem
    obtain ⟨conflict, -, heq⟩ := List.mem_map.1 hmem
    exact frameOf_settling_ne resolution conflict heq
  cases h with
  | unlisted _ hframes => exact ⟨[], hframes, List.not_mem_nil⟩
  | settled _ _ hframes => exact ⟨_, hframes, hmap _⟩
  | @stopped _ before _ conflict _ _ _ _ _ _ _ hframes =>
    rw [List.append_assoc, List.cons_append] at hframes
    refine ⟨_, hframes, ?_⟩
    rw [toList_encodeCommand, List.mem_append, not_or]
    refine ⟨hmap before, ?_⟩
    split
    · exact List.not_mem_nil
    · exact fun hmem => frameOf_settling_ne resolution conflict (List.mem_singleton.1 hmem).symm

/-- A merge of which a conflict has been listed is open afterwards, unless the connection is
lost. -/
theorem merge_resolveAll {resolution : Resolution} {c c' : Client (Recorder τ)} {q : QueryResult}
    (hopen : c.session.isOpen = true)
    (h : execute Statement.showConflicts.text c = (.ok (.query q), c')) (hrow : 0 < q.length) :
    (resolveAll resolution c).2.session.merge =
      if (resolveAll resolution c).2.session.isOpen then .pending else .clean := by
  obtain ⟨hopen', hpending⟩ := pending_of_listed_row h hrow
  have hcases := resolveAll_settledListing hopen resolution
  generalize resolveAll resolution c = result at hcases ⊢
  cases hcases with
  | unlisted hlist =>
    rw [conflicts_apply, h] at hlist
    obtain ⟨-, rfl⟩ := Prod.mk.inj hlist
    rw [if_pos hopen', hpending]
  | settled hlist hsettles =>
    obtain ⟨-, rfl⟩ := Prod.mk.inj (h.symm.trans hlist.reply)
    obtain ⟨hd, hmerge⟩ := hsettles.merge_eq hopen'
    rw [if_pos hd, hmerge, hpending]
  | stopped hlist hsettles hfails =>
    obtain ⟨-, rfl⟩ := Prod.mk.inj (h.symm.trans hlist.reply)
    obtain ⟨hopen'', hmerge⟩ := hsettles.merge_eq hopen'
    rw [merge_resolve hopen'' hfails, hmerge, hpending]

end All

/-- On an open client settling every conflict asks for the listing once and first. Each row of a
listing that can be read is then settled in its turn, by one frame of its own, up to the first
that fails; behind that one nothing is handed over. The answer is the number of rows, and is
given exactly if all of them have been settled. A merge with a listed row is open afterwards,
unless the connection is lost, and that is told by the error. -/
theorem resolveAll_settles_in_order [Endpoint τ] (c : Client (Recorder τ))
    (hopen : c.session.isOpen = true) (resolution : Resolution) :
    let result := resolveAll resolution c
    SettledListing resolution c result ∧
      (∃ frames,
        result.2.link.frames = c.link.frames ++ frameOf Statement.showConflicts.text :: frames ∧
          frameOf Statement.showConflicts.text ∉ frames) ∧
      (∀ n, result.1 = .ok n ↔ ∃ q listed c' d,
        Listed c q listed c' ∧ q.length = n ∧ Settles resolution listed c' d) ∧
      (∀ q, (execute Statement.showConflicts.text c).1 = .ok (.query q) → 0 < q.length →
        result.2.session.merge = if result.2.session.isOpen then .pending else .clean) ∧
      (result.2.session.isOpen = false ↔
        ∃ e, result.1 = .error e ∧ e.losesConnection = true) := by
  intro result
  have hsettled : SettledListing resolution c result := resolveAll_settledListing hopen resolution
  have hteardown : (resolveAll (τ := Recorder τ) resolution).TearsDown :=
    .of_map (Request.tearsDown (r := .resolveAll resolution) (by simp) (by simp))
  refine ⟨hsettled, hsettled.listed_once, ?_, ?_, hteardown.closed_iff c hopen⟩
  · intro n
    constructor
    · intro hn
      clear_value result
      cases hsettled with
      | unlisted | stopped => cases hn
      | settled hlist hsettles =>
        cases hn
        exact ⟨_, _, _, _, hlist, rfl, hsettles⟩
    · rintro ⟨q, listed, c', d, hlist, rfl, hsettles⟩
      exact congrArg Prod.fst (resolveAll_of_settles hlist hsettles)
  · intro q hq hrow
    exact merge_resolveAll hopen (Prod.ext hq rfl) hrow

/-- The only listed conflict is settled, and the merge is still open. -/
theorem resolveAll_settles_oneConflict :
    let c := receiving [oneConflict, "\x7b\"success\":true\x7d\n"]
    let d := (resolveAll .source c).2
    (∃ q listed c' d, Listed c q listed c' ∧ q.length = 1 ∧ Settles .source listed c' d) ∧
      d.session.merge = .pending ∧
      d.link.frames =
        [frameOf "SHOW MERGE CONFLICTS", frameOf "RESOLVE CONFLICT d.t.1 USING SOURCE"] := by
  intro c d
  have hcount : (resolveAll .source c).1 = .ok 1 := by decide +kernel
  have hopen : d.session.isOpen = true := by decide +kernel
  have hframes : d.link.frames =
      [frameOf "SHOW MERGE CONFLICTS", frameOf "RESOLVE CONFLICT d.t.1 USING SOURCE"] := by
    decide +kernel
  obtain ⟨-, -, hcounted, hmerge, -⟩ := resolveAll_settles_in_order c rfl .source
  clear_value c
  obtain ⟨q, listed, c', d', hlist, hlength, hsettles⟩ := (hcounted 1).1 hcount
  have hrows : (execute Statement.showConflicts.text c).1 = .ok (.query q) :=
    congrArg Prod.fst hlist.reply
  have hpending := hmerge q hrows (by rw [hlength]; decide)
  rw [if_pos hopen] at hpending
  exact ⟨⟨q, listed, c', d', hlist, hlength, hsettles⟩, hpending, hframes⟩

end Client
end DbClient
