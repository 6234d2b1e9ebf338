import DbClient.Proofs.Session.TypedCall

/-!
# Steps of a run

A run cut into steps that issue one command each. Settling a whole list of conflicts
is many steps: the conflicts are listed, and then settled one by one, up to the first
that fails. Every other call is a step of its own. A step is kept with the client that
it starts from, and the steps of a run follow one another without a gap.
-/

namespace DbClient

/-- A call, and the client that it is made on. -/
structure Step (τ : Type) where
  request : Request
  client : Client τ

namespace Step

variable {τ : Type} [Endpoint τ]

/-- What the call of a step answers. -/
def outcome (p : Step τ) : Except ClientError Answer :=
  (p.request.perform p.client).1

/-- The client that a step leaves. -/
def left (p : Step τ) : Client τ :=
  (p.request.perform p.client).2

/-- Steps of which the first starts from `c`, the last leaves `d`, and each of the
others starts from what the one before it has left. -/
def Chain : Client τ → List (Step τ) → Client τ → Prop
  | c, [], d => c = d
  | c, p :: rest, d => p.client = c ∧ Chain p.left rest d

theorem Chain.append {c d e : Client τ} {ps qs : List (Step τ)} (hp : Chain c ps d)
    (hq : Chain d qs e) : Chain c (ps ++ qs) e := by
  induction ps generalizing c with
  | nil =>
    cases hp
    exact hq
  | cons p ps ih => exact ⟨hp.1, ih hp.2⟩

/-- What every step preserves the chain preserves. -/
theorem Chain.induction {P : Client τ → Prop} {c d : Client τ} {ps : List (Step τ)}
    (h : Chain c ps d) (step : ∀ p ∈ ps, P p.client → P p.left) (start : P c) :
    P d ∧ ∀ p ∈ ps, P p.client := by
  induction ps generalizing c with
  | nil =>
    cases h
    exact ⟨start, by simp⟩
  | cons p ps ih =>
    obtain ⟨rfl, hrest⟩ := h
    have hnext := step p List.mem_cons_self start
    obtain ⟨hd, hall⟩ := ih hrest (fun q hq => step q (List.mem_cons_of_mem _ hq)) hnext
    exact ⟨hd, List.forall_mem_cons.2 ⟨start, hall⟩⟩

/-- The frames that a step hands to the transport. -/
def handed (p : Step (Recorder τ)) : List Bytes :=
  p.left.link.frames.drop p.client.link.frames.length

theorem handed_eq {p : Step (Recorder τ)} {frames : List Bytes}
    (h : p.left.link.frames = p.client.link.frames ++ frames) : p.handed = frames := by
  rw [handed, h, List.drop_left]

end Step

namespace Request

variable {τ : Type} [Endpoint τ]

/-- The steps of settling the conflicts of a list, up to the first that fails. -/
def resolveSteps (resolution : Resolution) : List MergeConflict → Client τ → List (Step τ)
  | [], _ => []
  | conflict :: rest, c =>
    ⟨resolve conflict resolution, c⟩ ::
      match Client.resolve conflict resolution c with
      | (.ok _, c) => resolveSteps resolution rest c
      | (.error _, _) => []

/-- The steps of a call. -/
def steps : Request → Client τ → List (Step τ)
  | resolveAll resolution, c =>
    ⟨conflicts, c⟩ ::
      match Client.conflicts c with
      | (.ok listed, c) => resolveSteps resolution listed c
      | (.error _, _) => []
  | r, c => [⟨r, c⟩]

theorem chain_resolveSteps (resolution : Resolution) (listed : List MergeConflict)
    (c : Client τ) :
    Step.Chain c (resolveSteps resolution listed c)
      (Client.resolveEach resolution listed c).2 := by
  induction listed generalizing c with
  | nil => rfl
  | cons conflict rest ih =>
    have hleft : Step.left ⟨resolve conflict resolution, c⟩ =
        (Client.resolve conflict resolution c).2 := by
      rw [Step.left, perform, Call.map_apply]
    refine ⟨rfl, ?_⟩
    rw [hleft, Client.resolveEach]
    rcases hr : Client.resolve conflict resolution c with ⟨e | o, c'⟩
    · rw [Call.bind_apply_error hr]
      rfl
    · rw [Call.bind_apply_ok hr]
      exact ih c'

/-- The steps of a call lead to the client that the call leaves. -/
theorem chain_steps (r : Request) (c : Client τ) :
    Step.Chain c (r.steps c) (r.perform c).2 := by
  cases r with
  | resolveAll resolution =>
    have hleft : Step.left ⟨conflicts, c⟩ = (Client.conflicts c).2 := by
      rw [Step.left, perform, Call.map_apply]
    refine ⟨rfl, ?_⟩
    rw [hleft, perform, Call.map_apply, Client.resolveAll]
    rcases hr : Client.conflicts c with ⟨e | listed, c'⟩
    · rw [Call.bind_apply_error hr]
      rfl
    · rw [Call.bind_apply_ok hr, Call.map_apply]
      exact chain_resolveSteps resolution listed c'
  | _ => exact ⟨rfl, rfl⟩

theorem request_of_mem_resolveSteps {resolution : Resolution} {listed : List MergeConflict}
    {c : Client τ} {p : Step τ} (h : p ∈ resolveSteps resolution listed c) :
    ∃ conflict, p.request = resolve conflict resolution := by
  induction listed generalizing c with
  | nil => cases h
  | cons conflict rest ih =>
    rcases List.mem_cons.1 h with rfl | h
    · exact ⟨conflict, rfl⟩
    · rcases hr : Client.resolve conflict resolution c with ⟨e | o, c'⟩ <;> rw [hr] at h
      · cases h
      · exact ih h

/-- A step makes its call itself, or one of the calls that settle a list of conflicts. -/
theorem request_of_mem_steps {r : Request} {c : Client τ} {p : Step τ} (h : p ∈ r.steps c) :
    (∀ resolution, r ≠ resolveAll resolution) ∧ p.request = r ∨ p.request = conflicts ∨
      ∃ conflict resolution, p.request = resolve conflict resolution := by
  cases r with
  | resolveAll resolution =>
    refine .inr ?_
    rcases List.mem_cons.1 h with rfl | h
    · exact .inl rfl
    · rcases hr : Client.conflicts c with ⟨e | listed, c'⟩ <;> rw [hr] at h
      · cases h
      · obtain ⟨conflict, hresolve⟩ := request_of_mem_resolveSteps h
        exact .inr ⟨conflict, resolution, hresolve⟩
  | _ =>
    cases List.mem_singleton.1 h
    exact .inl ⟨by simp, rfl⟩

end Request

namespace Client

variable {τ : Type} [Endpoint τ]

/-- The steps of a run. -/
def steps : List Request → Client τ → List (Step τ)
  | [], _ => []
  | r :: rest, c => r.steps c ++ steps rest (r.perform c).2

/-- The steps of a run lead to the client that the run leaves. -/
theorem chain_steps (rs : List Request) (c : Client τ) :
    Step.Chain c (steps rs c) (run rs c).2 := by
  induction rs generalizing c with
  | nil => rfl
  | cons r rest ih => exact (r.chain_steps c).append (ih _)

/-- The steps of the calls that a run begins with are steps of the run. -/
theorem mem_steps_of_mem_steps_take {rs : List Request} {n : Nat} {c : Client τ} {p : Step τ}
    (h : p ∈ steps (rs.take n) c) : p ∈ steps rs c := by
  induction rs generalizing n c with
  | nil => simpa using h
  | cons r rest ih =>
    cases n with
    | zero => cases h
    | succ n =>
      rcases List.mem_append.1 h with h | h
      · exact List.mem_append_left _ h
      · exact List.mem_append_right _ (ih h)

/-- What holds of the calls that settle a list of conflicts, and of every other call of
a run, holds of the calls of its steps. -/
theorem forall_mem_steps {Q : Request → Prop} {rs : List Request} {c : Client τ}
    (listing : Q .conflicts) (settling : ∀ conflict resolution, Q (.resolve conflict resolution))
    (others : ∀ r ∈ rs, (∀ resolution, r ≠ .resolveAll resolution) → Q r) :
    ∀ p ∈ steps rs c, Q p.request := by
  induction rs generalizing c with
  | nil =>
    intro p hp
    cases hp
  | cons r rest ih =>
    intro p hp
    obtain ⟨hr, hrest⟩ := List.forall_mem_cons.1 others
    rcases List.mem_append.1 hp with hp | hp
    · rcases Request.request_of_mem_steps hp with ⟨hnot, hreq⟩ | hreq | ⟨conflict, resolution, hreq⟩
      · rw [hreq]
        exact hr hnot
      · rw [hreq]
        exact listing
      · rw [hreq]
        exact settling conflict resolution
    · exact ih hrest p hp

theorem isStep_of_mem_steps {rs : List Request} {c : Client τ} :
    ∀ p ∈ steps rs c, ∀ resolution, p.request ≠ .resolveAll resolution :=
  forall_mem_steps (Q := fun r => ∀ resolution, r ≠ .resolveAll resolution) (by simp) (by simp)
    fun _ _ hnot => hnot

end Client
end DbClient
