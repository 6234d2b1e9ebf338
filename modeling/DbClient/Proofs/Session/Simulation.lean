import DbClient.Proofs.Session.Single
import DbClient.Proofs.Session.Steps

/-!
# Simulations

Clients over two transports give a caller the same as long as their exchanges bring the
same lines. What a relation between clients must establish for that is said once, of
exchanges and of closing; calls of one command, the settling of lists of conflicts and
whole runs follow.
-/

namespace DbClient

open Client (SameChannel)

variable {τ σ : Type}

/-- Two clients of which a caller sees the same. -/
structure Client.Alike (c : Client τ) (d : Client σ) : Prop where
  isOpen : c.session.isOpen = d.session.isOpen
  merge : c.session.merge = d.session.merge

theorem Client.Alike.refusal?_eq {c : Client τ} {d : Client σ} (h : c.Alike d)
    (command : String) : d.refusal? command = c.refusal? command := by
  simp only [refusal?, h.isOpen, h.merge]

/-- What a relation between clients must establish: it is kept by an exchange, which brings
the same outcome on both sides if the command and its label are ones that the first client
may exchange, and by closing; and it speaks of nothing but the channels, and of merge
states that are the same. -/
structure Simulation [Transport τ] [Transport σ] (R : Client τ → Client σ → Prop)
    (May : String → String → Client τ → Prop) : Prop where
  alike : ∀ {c d}, R c d → c.Alike d
  congr : ∀ {c c' d d'}, R c d → SameChannel c' c → SameChannel d' d →
    c'.session.merge = d'.session.merge → R c' d'
  exchange : ∀ {c d text label}, R c d → c.session.isOpen = true → May text label c →
    (Client.exchange text label c).1 = (Client.exchange text label d).1 ∧
      R (Client.exchange text label c).2 (Client.exchange text label d).2
  close : ∀ {c d}, R c d → c.session.isOpen = true → R c.close d.close

namespace Simulation

variable [Endpoint τ] [Endpoint σ] {R : Client τ → Client σ → Prop}
  {May : String → String → Client τ → Prop} {c : Client τ} {d : Client σ} {r : Request}

/-- A step that is covered by a simulation: it exchanges a command that may be exchanged, if
any, and opens nothing. -/
structure Covers (May : String → String → Client τ → Prop) (p : Step τ) : Prop where
  connect : p.request = .connect → p.client.session.isOpen = true
  single : ∀ s text, p.request.single? = some s → s.command = .ok text →
    p.client.refusal? text = none → May text (s.label text) p.client

/-! ## Steps -/

theorem single (hs : Simulation R May) (h : R c d) {s : SingleCall} (hsingle : r.single? = some s)
    (hcovers : Covers May ⟨r, c⟩) :
    (r.perform c).1 = (r.perform d).1 ∧ R (r.perform c).2 (r.perform d).2 := by
  cases hcommand : s.command with
  | error e =>
    rw [Request.perform_of_misuse hsingle hcommand, Request.perform_of_misuse hsingle hcommand]
    exact ⟨rfl, h⟩
  | ok text =>
    have hsame := (hs.alike h).refusal?_eq text
    cases hr : c.refusal? text with
    | some e =>
      rw [Request.perform_of_refused hsingle hcommand hr,
        Request.perform_of_refused hsingle hcommand (hsame.trans hr)]
      exact ⟨rfl, h⟩
    | none =>
      obtain ⟨hline, hnext⟩ := hs.exchange h (Client.isOpen_of_admitted hr)
        (hcovers.single s text hsingle hcommand hr)
      rw [Request.perform_of_admitted hsingle hcommand hr,
        Request.perform_of_admitted hsingle hcommand (hsame.trans hr)]
      dsimp only
      refine ⟨by rw [hline], hs.congr hnext (.withMerge _ _) (.withMerge _ _) ?_⟩
      rw [Client.merge_withMerge, Client.merge_withMerge, hline, (hs.alike hnext).merge]

theorem step (hs : Simulation R May) (h : R c d) (hr : ∀ resolution, r ≠ .resolveAll resolution)
    (hcovers : Covers May ⟨r, c⟩) :
    (r.perform c).1 = (r.perform d).1 ∧ R (r.perform c).2 (r.perform d).2 := by
  cases r with
  | connect =>
    -- opening an open session is a misuse on both sides
    have hc : c.session.isOpen = true := hcovers.connect rfl
    have hd : d.session.isOpen = true := (hs.alike h).isOpen ▸ hc
    rw [Request.perform_connect, Request.perform_connect, Client.connect, if_pos hc,
      Client.connect, if_pos hd]
    exact ⟨rfl, h⟩
  | close =>
    refine ⟨rfl, ?_⟩
    show R c.close d.close
    cases hc : c.session.isOpen with
    | true => exact hs.close h hc
    | false =>
      have hd : d.session.isOpen = false := (hs.alike h).isOpen ▸ hc
      rwa [Client.close, Client.close, if_neg (by simp [hc]), if_neg (by simp [hd])]
  | resolveAll resolution => exact absurd rfl (hr resolution)
  | _ => exact hs.single h rfl hcovers

/-! ## Calls -/

theorem resolveEach (hs : Simulation R May) {resolution : Resolution}
    {listed : List MergeConflict} (h : R c d)
    (hcovers : ∀ p ∈ Request.resolveSteps resolution listed c, Covers May p) :
    (Client.resolveEach resolution listed c).1 = (Client.resolveEach resolution listed d).1 ∧
      R (Client.resolveEach resolution listed c).2 (Client.resolveEach resolution listed d).2 := by
  induction listed generalizing c d with
  | nil => exact ⟨rfl, h⟩
  | cons conflict rest ih =>
    obtain ⟨hfirst, hrest⟩ := List.forall_mem_cons.1 hcovers
    obtain ⟨houtcome, hnext⟩ := hs.step h (by simp) hfirst
    rw [Request.perform, Call.map_apply, Request.perform, Call.map_apply] at houtcome hnext
    have hsame := map_injective (fun _ _ => Answer.resolved.inj) houtcome
    rw [Client.resolveEach, Client.resolveEach]
    rcases hc : Client.resolve conflict resolution c with ⟨e | o, c'⟩ <;>
      rcases hd : Client.resolve conflict resolution d with ⟨e' | o', d'⟩ <;>
      rw [hc] at hsame hnext hrest <;> rw [hd] at hsame hnext <;> cases hsame
    · rw [Call.bind_apply_error hc, Call.bind_apply_error hd]
      exact ⟨rfl, hnext⟩
    · rw [Call.bind_apply_ok hc, Call.bind_apply_ok hd]
      exact ih hnext hrest

theorem call (hs : Simulation R May) (h : R c d) (hcovers : ∀ p ∈ r.steps c, Covers May p) :
    (r.perform c).1 = (r.perform d).1 ∧ R (r.perform c).2 (r.perform d).2 := by
  cases r with
  | resolveAll resolution =>
    obtain ⟨hfirst, hrest⟩ := List.forall_mem_cons.1 hcovers
    obtain ⟨houtcome, hnext⟩ := hs.step h (by simp) hfirst
    rw [Request.perform, Call.map_apply, Request.perform, Call.map_apply] at houtcome hnext
    have hsame := map_injective (fun _ _ => Answer.conflicts.inj) houtcome
    rw [Request.perform, Call.map_apply, Request.perform, Call.map_apply, Client.resolveAll,
      Client.resolveAll]
    rcases hc : Client.conflicts c with ⟨e | listed, c'⟩ <;>
      rcases hd : Client.conflicts d with ⟨e' | listed', d'⟩ <;>
      rw [hc] at hsame hnext hrest <;> rw [hd] at hsame hnext <;> cases hsame
    · rw [Call.bind_apply_error hc, Call.bind_apply_error hd]
      exact ⟨rfl, hnext⟩
    · rw [Call.bind_apply_ok hc, Call.bind_apply_ok hd, Call.map_apply, Call.map_apply]
      obtain ⟨heach, hleft⟩ := hs.resolveEach hnext hrest
      exact ⟨by rw [heach], hleft⟩
  | _ => exact hs.step h (by simp) (hcovers _ List.mem_cons_self)

/-! ## Runs -/

theorem run (hs : Simulation R May) {rs : List Request} (h : R c d)
    (hcovers : ∀ p ∈ Client.steps rs c, Covers May p) :
    (Client.run rs c).1 = (Client.run rs d).1 ∧ R (Client.run rs c).2 (Client.run rs d).2 := by
  induction rs generalizing c d with
  | nil => exact ⟨rfl, h⟩
  | cons r rest ih =>
    obtain ⟨hfirst, hrest⟩ := List.forall_mem_append.1 hcovers
    obtain ⟨houtcome, hnext⟩ := hs.call h hfirst
    obtain ⟨houtcomes, hleft⟩ := ih hnext hrest
    refine ⟨?_, hleft⟩
    rw [Client.run, Client.run]
    show _ :: _ = _ :: _
    rw [houtcome, houtcomes]

theorem alike_run (hs : Simulation R May) {rs : List Request} (h : R c d)
    (hcovers : ∀ p ∈ Client.steps rs c, Covers May p) (n : Nat) :
    (Client.run (rs.take n) c).2.Alike (Client.run (rs.take n) d).2 := by
  have htake : ∀ p ∈ Client.steps (rs.take n) c, Covers May p :=
    fun p hp => hcovers p (Client.mem_steps_of_mem_steps_take hp)
  exact hs.alike (hs.run h htake).2

end Simulation
end DbClient
