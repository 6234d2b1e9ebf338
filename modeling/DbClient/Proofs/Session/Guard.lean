import DbClient.Proofs.Session.Single
import DbClient.Proofs.Session.Steps
import DbClient.Transport.Scripted

/-!
# The merge guard

While the session holds a merge to be open, no frame of a guarded class is handed to
the transport, whatever is called and whatever the transport does. The guard is no
stricter than that: every other command that can be framed is handed over.
-/

namespace DbClient

variable {τ : Type} {command : String}

namespace Client

/-! ## What the calls hand over -/

theorem quitFrame_eq : quitFrame = frameOf "quit" := by
  decide

/-- Closing hands the announcement of the end over, unless the session is closed. -/
theorem frames_close [Transport τ] (c : Client (Recorder τ)) :
    c.close.link.frames =
      c.link.frames ++ if c.session.isOpen then [frameOf "quit"] else [] := by
  unfold close
  split
  · simp [Transport.close, Transport.terminate, Recorder.close, Recorder.terminate,
      ChannelEvent.frame?, quitFrame_eq]
  · simp

/-- Opening hands nothing over. -/
theorem frames_connect [Endpoint τ] (c : Client (Recorder τ)) :
    (connect c).2.link.frames = c.link.frames := by
  have hcases := connect_opening c
  generalize connect c = reply at hcases ⊢
  cases hcases with
  | already => rfl
  | failed _ hconnect | opened _ hconnect =>
    obtain ⟨-, rfl⟩ := Prod.mk.inj hconnect
    simp [ChannelEvent.frame?]

end Client

/-- Frames that may be handed over by a call on a client: none that is a guarded
command while a merge is open. -/
def MayHandOver (c : Client τ) (frames : List Bytes) : Prop :=
  ∀ frame ∈ frames, ∃ text, frame = frameOf text ∧ c.forbids text = false

namespace MayHandOver

variable {c : Client τ}

theorem nil : MayHandOver c [] := by
  intro frame h
  cases h

theorem single {text : String} (h : c.forbids text = false) : MayHandOver c [frameOf text] := by
  intro frame hframe
  exact ⟨text, List.mem_singleton.1 hframe, h⟩

theorem ite {text : String} {p : Prop} [Decidable p] (h : c.forbids text = false) :
    MayHandOver c (if p then [] else [frameOf text]) := by
  split
  · exact nil
  · exact single h

/-- A frame is the frame of one command only. -/
theorem not_forbids {text : String} {frames : List Bytes} (h : MayHandOver c frames)
    (hmem : frameOf text ∈ frames) : c.forbids text = false := by
  obtain ⟨other, heq, hother⟩ := h _ hmem
  rw [frameOf_injective heq]
  exact hother

end MayHandOver

namespace Request

variable [Endpoint τ] {c : Client (Recorder τ)}

/-- A call of one command adds to the frames handed over only what the guard lets
through. -/
theorem frames_single {r : Request} {s : SingleCall} (h : r.single? = some s) :
    ∃ frames, (r.perform c).2.link.frames = c.link.frames ++ frames ∧ MayHandOver c frames := by
  cases performed h c with
  | refused _ hperform =>
    rw [hperform]
    exact ⟨[], by simp, .nil⟩
  | exchanged _ hopen hmay hchannel _ =>
    rw [hchannel.link]
    exact ⟨_, Client.frames_exchange_of_open hopen, .ite hmay⟩

/-- So does every other call that is a step of its own. -/
theorem frames_perform {r : Request} (h : ∀ resolution, r ≠ resolveAll resolution) :
    ∃ frames, (r.perform c).2.link.frames = c.link.frames ++ frames ∧ MayHandOver c frames := by
  cases hsingle : r.single? with
  | some s => exact frames_single hsingle
  | none =>
    cases r with
    | resolveAll resolution => exact absurd rfl (h resolution)
    | connect =>
      rw [perform, Call.map_apply]
      exact ⟨[], by simp [Client.frames_connect], .nil⟩
    | close =>
      refine ⟨_, Client.frames_close c, ?_⟩
      -- the announcement of the end is no command of the merge family
      split
      · exact .single (c.not_forbids_of_class_other (by decide))
      · exact .nil
    | _ => cases hsingle

end Request

namespace Step

variable [Endpoint τ] {p : Step (Recorder τ)} {c d : Client (Recorder τ)}

theorem frames_left (h : ∀ resolution, p.request ≠ .resolveAll resolution) :
    p.left.link.frames = p.client.link.frames ++ p.handed := by
  obtain ⟨frames, hframes, -⟩ := Request.frames_perform (c := p.client) h
  rw [handed_eq hframes]
  exact hframes

theorem mayHandOver_handed (h : ∀ resolution, p.request ≠ .resolveAll resolution) :
    MayHandOver p.client p.handed := by
  obtain ⟨frames, hframes, hmay⟩ := Request.frames_perform (c := p.client) h
  rw [handed_eq hframes]
  exact hmay

/-- What a chain of steps hands over is what its steps hand over, one after another. -/
theorem Chain.frames {ps : List (Step (Recorder τ))} (h : Chain c ps d)
    (hsteps : ∀ p ∈ ps, ∀ resolution, p.request ≠ .resolveAll resolution) :
    d.link.frames = c.link.frames ++ ps.flatMap handed := by
  induction ps generalizing c with
  | nil =>
    cases h
    simp
  | cons p ps ih =>
    obtain ⟨rfl, hrest⟩ := h
    obtain ⟨hp, hps⟩ := List.forall_mem_cons.1 hsteps
    rw [ih hrest hps, frames_left hp, List.append_assoc, List.flatMap_cons]

end Step

/-! ## The guard over runs -/

namespace Client

variable [Endpoint τ]

theorem perform_of_forbids {c : Client (Recorder τ)} {r : Request}
    (hr : r = .execute command ∨ r = .raw command) (hopen : c.session.isOpen = true)
    (h : c.forbids command = true) :
    r.perform c = (.error (.usage (.mergePending command)), c) := by
  have hrefused := refusal?_of_forbids hopen h
  rcases hr with rfl | rfl
  · rw [Request.perform, Call.map_apply, execute_of_refused hrefused]
    simp only [Except.map]
  · rw [Request.perform, Call.map_apply, executeRaw_of_refused hrefused]
    simp only [Except.map]

theorem handed_of_not_forbids {c : Client (Recorder τ)} {r : Request}
    (hr : r = .execute command ∨ r = .raw command) (hopen : c.session.isOpen = true)
    (hmem : delimiter ∉ Utf8.encode command) (h : c.forbids command = false) :
    Step.handed ⟨r, c⟩ = [frameOf command] := by
  have hadmitted := admitted_of_not_forbids hopen h
  have hchannel : SameChannel (r.perform c).2 (exchange command command c).2 := by
    rcases hr with rfl | rfl
    · rw [Request.perform, Call.map_apply]
      exact execute_channel hadmitted
    · rw [Request.perform, Call.map_apply]
      exact executeRaw_channel hadmitted
  apply Step.handed_eq
  rw [Step.left, hchannel.link, frames_exchange_of_open hopen, if_neg hmem]

/-- Every run is a chain of steps, and what it hands to the transport is what they hand
over: frames of commands. No step that starts while a merge is open hands over the frame
of a guarded command. A command that can be framed is handed over on every open client,
and nothing else with it, unless the guard refuses it and leaves the client alone. -/
theorem guarded_never_handed (rs : List Request) (c : Client (Recorder τ)) :
    Step.Chain c (steps rs c) (run rs c).2 ∧
      (run rs c).2.link.frames = c.link.frames ++ (steps rs c).flatMap Step.handed ∧
      (∀ p ∈ steps rs c, ∀ frame ∈ p.handed, ∃ text, frame = frameOf text) ∧
      (∀ p ∈ steps rs c, p.client.session.merge = .pending →
        ∀ text, frameOf text ∈ p.handed → (CommandClass.of text).isGuarded = false) ∧
      ∀ (d : Client (Recorder τ)) (command : String), d.session.isOpen = true →
        delimiter ∉ Utf8.encode command → ∀ r, r = .execute command ∨ r = .raw command →
        if d.session.merge = .pending ∧ (CommandClass.of command).isGuarded = true then
          r.perform d = (.error (.usage (.mergePending command)), d)
        else Step.handed ⟨r, d⟩ = [frameOf command] := by
  have hchain := chain_steps rs c
  have hmay : ∀ p ∈ steps rs c, MayHandOver p.client p.handed :=
    fun p hp => Step.mayHandOver_handed (isStep_of_mem_steps p hp)
  refine ⟨hchain, hchain.frames isStep_of_mem_steps, ?_, ?_, ?_⟩
  · intro p hp frame hframe
    obtain ⟨text, htext, -⟩ := hmay p hp frame hframe
    exact ⟨text, htext⟩
  · intro p hp hpending text hmem
    simpa [forbids, hpending] using (hmay p hp).not_forbids hmem
  · intro d command hopen hmem r hr
    split
    · rename_i hguard
      exact perform_of_forbids hr hopen (by simpa [forbids] using hguard)
    · rename_i hguard
      exact handed_of_not_forbids hr hopen hmem (by simpa [forbids] using hguard)

/-- A client over a script that answers its first command with one conflict. -/
def beforeConflict : Client (Recorder Scripted) :=
  let reply := "\x7b\"success\":true,\"type\":\"query\",\"result\":\x7b\"columns\":" ++
    "[\"Database\",\"Table\",\"Key\"],\"data\":[[\"d\",\"t\",\"1\"]]\x7d\x7d\n"
  attach .default (.start (.start [.ok (Utf8.encode reply)] []))

/-- After a manual merge that found a conflict a checkout is refused. -/
theorem checkout_after_conflict_refused :
    let d := (run [.mergeManual "b"] beforeConflict).2
    d.session.merge = .pending ∧
      (Request.execute "CHECKOUT b").perform d =
        (.error (.usage (.mergePending "CHECKOUT b")), d) := by
  intro d
  have hopen : d.session.isOpen = true := by decide +kernel
  have hpending : d.session.merge = .pending := by decide +kernel
  have hguarded : (CommandClass.of "CHECKOUT b").isGuarded = true := by decide
  clear_value d
  have h := (guarded_never_handed [] d).2.2.2.2 d "CHECKOUT b" hopen (by decide) _ (.inl rfl)
  rw [if_pos ⟨hpending, hguarded⟩] at h
  exact ⟨hpending, h⟩

end Client
end DbClient
