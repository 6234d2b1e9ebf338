import DbClient.Reply.Query
import Mathlib.Data.List.Basic

/-!
# Walks from both ends

Rows are taken from the two ends of a walk in any order. None is lost and none comes twice: the
rows taken from the front, those that are left, and those taken from the back, last one first, are
the rows of the result. A walk that has come to its end stays there, whichever end is asked. Walks
over one result do not disturb each other.
-/

namespace DbClient

namespace Rows

/-- The two ends of a walk. -/
inductive End where
  | front
  | back
  deriving DecidableEq, Repr

/-- The row at an end, if one is left, and the walk without it. -/
def take : End → Rows → Option Row × Rows
  | .front, w => w.next
  | .back, w => w.nextBack

/-- What is taken from the ends of a walk one after another, and the walk after that. -/
def takeAll : List End → Rows → List (End × Option Row) × Rows
  | [], w => ([], w)
  | e :: rest, w =>
    let (row?, w) := take e w
    let (taken, w) := takeAll rest w
    ((e, row?) :: taken, w)

/-- The rows among them that come from one end, in the order in which they were taken. -/
def takenFrom (e : End) (taken : List (End × Option Row)) : List Row :=
  taken.filterMap fun t => if t.1 = e then t.2 else none

theorem takenFrom_cons (e : End) (t : End × Option Row) (taken : List (End × Option Row)) :
    takenFrom e (t :: taken) = takenFrom e [t] ++ takenFrom e taken := by
  rw [takenFrom, takenFrom, takenFrom, ← List.filterMap_append, List.singleton_append]

variable {w w' : Rows} {e : End} {row? : Option Row} {ends : List End}
  {taken : List (End × Option Row)}

theorem length_toList (w : Rows) : w.toList.length = w.length :=
  List.length_map _

/-! ## One row -/

/-- A row that is taken was at its end of the rows that were left. -/
theorem conserves_of_take (h : take e w = (row?, w')) :
    w.toList = takenFrom .front [(e, row?)] ++ w'.toList ++
      (takenFrom .back [(e, row?)]).reverse := by
  obtain ⟨columns, remaining⟩ := w
  cases e with
  | front =>
    cases remaining with
    | nil =>
      cases h
      rfl
    | cons cells rest =>
      cases h
      simp [takenFrom, toList]
  | back =>
    rcases List.eq_nil_or_concat remaining with rfl | ⟨front, cells, rfl⟩
    · cases h
      rfl
    · simp only [take, nextBack, List.concat_eq_append, List.getLast?_append_cons,
        List.dropLast_concat] at h
      cases h
      simp [takenFrom, toList]

theorem take_of_spent (e : End) (h : w.remaining = []) : take e w = (none, w) := by
  cases e <;> simp [take, next, nextBack, h]

theorem spent_of_take (h : take e w = (none, w')) : w.remaining = [] ∧ w' = w := by
  obtain ⟨columns, remaining⟩ := w
  cases e with
  | front =>
    cases remaining with
    | nil =>
      cases h
      exact ⟨rfl, rfl⟩
    | cons cells rest => cases h
  | back =>
    rw [take, nextBack] at h
    split at h
    · rename_i hlast
      cases h
      exact ⟨List.getLast?_eq_none_iff.1 hlast, rfl⟩
    · cases h

/-! ## Many rows -/

/-- What is taken from a walk is what is taken first, and what is taken from the walk after that. -/
theorem exists_of_takeAll_cons {rest : List End} (h : takeAll (e :: rest) w = (taken, w')) :
    ∃ row? w₁ later, take e w = (row?, w₁) ∧ takeAll rest w₁ = (later, w') ∧
      taken = (e, row?) :: later := by
  rw [takeAll] at h
  cases h
  exact ⟨_, _, _, rfl, rfl, rfl⟩

/-- The rows that were left are those that are taken and those that are left now. -/
theorem conserves_of_takeAll (h : takeAll ends w = (taken, w')) :
    w.toList = takenFrom .front taken ++ w'.toList ++ (takenFrom .back taken).reverse := by
  induction ends generalizing w taken with
  | nil =>
    cases h
    simp [takenFrom]
  | cons e rest ih =>
    obtain ⟨row?, w₁, later, hfirst, hrest, rfl⟩ := exists_of_takeAll_cons h
    calc w.toList
        = takenFrom .front [(e, row?)] ++ w₁.toList ++ (takenFrom .back [(e, row?)]).reverse :=
          conserves_of_take hfirst
      _ = takenFrom .front [(e, row?)] ++
            (takenFrom .front later ++ w'.toList ++ (takenFrom .back later).reverse) ++
              (takenFrom .back [(e, row?)]).reverse := by rw [ih hrest]
      _ = takenFrom .front ((e, row?) :: later) ++ w'.toList ++
            (takenFrom .back ((e, row?) :: later)).reverse := by
        rw [takenFrom_cons .front _ later, takenFrom_cons .back _ later, List.reverse_append]
        simp only [List.append_assoc]

theorem takeAll_of_spent (ends : List End) (h : w.remaining = []) :
    takeAll ends w = (ends.map (·, none), w) := by
  induction ends with
  | nil => rfl
  | cons e rest ih => simp only [takeAll, take_of_spent e h, ih, List.map_cons]

/-- A row that is missed at one end is missed because none is left. -/
theorem spent_of_takeAll (h : takeAll ends w = (taken, w')) (hmissed : (e, none) ∈ taken) :
    w'.remaining = [] := by
  induction ends generalizing w taken with
  | nil =>
    cases h
    cases hmissed
  | cons e' rest ih =>
    obtain ⟨row?, w₁, later, hfirst, hrest, rfl⟩ := exists_of_takeAll_cons h
    rcases List.mem_cons.1 hmissed with hmissed | hmissed
    · -- the walk was spent when the row was missed, and what follows takes nothing from it
      cases hmissed
      obtain ⟨hspent, rfl⟩ := spent_of_take hfirst
      rw [takeAll_of_spent rest hspent] at hrest
      cases hrest
      exact hspent
    · exact ih hrest hmissed

/-- Walking forward comes to the rows one by one. -/
theorem next_after (w : Rows) (i : Nat) :
    (takeAll (List.replicate i .front) w).2.next.1 = w.toList[i]? := by
  induction i generalizing w with
  | zero =>
    obtain ⟨columns, remaining⟩ := w
    cases remaining <;> rfl
  | succ i ih =>
    rw [List.replicate_succ, takeAll]
    show (takeAll (List.replicate i .front) w.next.2).2.next.1 = w.toList[i + 1]?
    rw [ih]
    obtain ⟨columns, remaining⟩ := w
    cases remaining <;> rfl

end Rows

/-! ## Many walks -/

open Rows (End takeAll takenFrom)

/-- What is done with walks over a result. A walk is known by the number of walks that were
started before it. -/
inductive WalkStep where
  | start
  | take (walk : Nat) (e : End)
  deriving DecidableEq, Repr

namespace WalkStep

/-- What a step takes, and from which walk, and the walks after it. -/
def perform (q : QueryResult) : WalkStep → List Rows → Option (Nat × End × Option Row) × List Rows
  | start, walks => (none, walks ++ [q.walk])
  | take k e, walks =>
    match walks[k]? with
    | none => (none, walks)
    | some w => (some (k, e, (w.take e).1), walks.set k (w.take e).2)

/-- What steps take, one after another, and the walks after the last step. -/
def performAll (q : QueryResult) :
    List WalkStep → List Rows → List (Nat × End × Option Row) × List Rows
  | [], walks => ([], walks)
  | step :: rest, walks =>
    let (taken?, walks) := step.perform q walks
    let (taken, walks) := performAll q rest walks
    (taken?.toList ++ taken, walks)

/-- The end from which a step takes a row of a walk. -/
def end? (k : Nat) : WalkStep → Option End
  | start => none
  | take n e => if n = k then some e else none

/-- What has been taken from one walk. -/
def takenOf (k : Nat) (taken : List (Nat × End × Option Row)) : List (End × Option Row) :=
  taken.filterMap fun t => if t.1 = k then some t.2 else none

theorem takenOf_append (k : Nat) (taken later : List (Nat × End × Option Row)) :
    takenOf k (taken ++ later) = takenOf k taken ++ takenOf k later :=
  List.filterMap_append

variable {q : QueryResult} {walks : List Rows} {k : Nat} {w : Rows} {step : WalkStep}

theorem perform_of_own {e : End} (hw : walks[k]? = some w) (hown : step.end? k = some e) :
    step.perform q walks = (some (k, e, (w.take e).1), walks.set k (w.take e).2) := by
  cases step with
  | start => cases hown
  | take n e' =>
    rw [end?] at hown
    split at hown
    · rename_i hk
      subst hk
      cases hown
      simp only [perform, hw]
    · cases hown

/-- A step on another walk, or one that starts a walk, leaves a walk as it is. -/
theorem perform_of_other (hw : walks[k]? = some w) (hother : step.end? k = none) :
    takenOf k (step.perform q walks).1.toList = [] ∧ (step.perform q walks).2[k]? = some w := by
  cases step with
  | start =>
    refine ⟨rfl, ?_⟩
    rw [perform, List.getElem?_append_left (List.getElem?_eq_some_iff.1 hw).1, hw]
  | take n e =>
    have hne : n ≠ k := by
      rintro rfl
      simp [end?] at hother
    cases hn : walks[n]? with
    | none => simp [perform, hn, hw, takenOf]
    | some v => simp [perform, hn, hw, takenOf, hne]

/-- In a run of steps on many walks each walk is as if it were the only one. -/
theorem own_of_performAll (hw : walks[k]? = some w) (steps : List WalkStep) :
    takenOf k (performAll q steps walks).1 = (takeAll (steps.filterMap (end? k)) w).1 ∧
      (performAll q steps walks).2[k]? = some (takeAll (steps.filterMap (end? k)) w).2 := by
  induction steps generalizing walks w with
  | nil => exact ⟨rfl, hw⟩
  | cons step rest ih =>
    rw [performAll, List.filterMap_cons, takenOf_append]
    -- only the walk's own steps move it, and they move it as if no other walk were there
    cases hend : step.end? k with
    | none =>
      obtain ⟨htaken, hleft⟩ := perform_of_other (q := q) hw hend
      rw [htaken]
      exact ih hleft
    | some e =>
      have hset : (walks.set k (w.take e).2)[k]? = some (w.take e).2 :=
        List.getElem?_set_self (List.getElem?_eq_some_iff.1 hw).1
      rw [perform_of_own hw hend]
      obtain ⟨htaken, hleft⟩ := ih hset
      refine ⟨?_, hleft⟩
      rw [htaken]
      simp [takenOf, takeAll]

end WalkStep

/-- Whatever is taken from the ends of a walk over the rows of a result, the rows from the front,
those that are left, and those from the back, last one first, are the rows of the result; the
length that is reported is the number of those that are left; and once a row has been missed at
either end both ends are missed ever after. A walk that is started at any point of a run of steps
on walks over the result is as if it were the only one. -/
theorem rows_taken_once (q : QueryResult) :
    (∀ ends : List End,
      let (taken, w) := q.walk.takeAll ends
      takenFrom .front taken ++ w.toList ++ (takenFrom .back taken).reverse =
          q.rows.map (⟨q.columns, ·⟩) ∧
        w.length = w.toList.length ∧
        (takenFrom .front taken).length + w.length + (takenFrom .back taken).length = q.length ∧
        ∀ e, (e, none) ∈ taken → ∀ more, w.takeAll more = (more.map (·, none), w)) ∧
      ∀ before after : List WalkStep,
        let walks := (WalkStep.performAll q before []).2
        let (taken, left) := WalkStep.performAll q (.start :: after) walks
        let (own, w) := q.walk.takeAll (after.filterMap (WalkStep.end? walks.length))
        WalkStep.takenOf walks.length taken = own ∧ left[walks.length]? = some w := by
  constructor
  · intro ends
    rcases h : q.walk.takeAll ends with ⟨taken, w⟩
    have hrows : takenFrom .front taken ++ w.toList ++ (takenFrom .back taken).reverse =
        q.rows.map (⟨q.columns, ·⟩) := (Rows.conserves_of_takeAll h).symm
    refine ⟨hrows, w.length_toList.symm, ?_, ?_⟩
    · have hlength := congrArg List.length hrows
      simp only [List.length_append, List.length_reverse, List.length_map,
        Rows.length_toList] at hlength
      exact hlength
    · intro e hmissed more
      exact Rows.takeAll_of_spent more (Rows.spent_of_takeAll h hmissed)
  · intro before after walks
    have hstarted : (walks ++ [q.walk])[walks.length]? = some q.walk := List.getElem?_concat_length
    exact WalkStep.own_of_performAll hstarted after

/-- Three rows under one column. -/
def threeRows : QueryResult :=
  ⟨["a"], [["1"], ["2"], ["3"]], 3, .zero, by decide⟩

/-- Three rows taken from both ends meet at the second one, and nothing follows. -/
theorem threeRows_taken_once :
    let (taken, w) := threeRows.walk.takeAll [.front, .back, .back, .front]
    takenFrom .front taken = [⟨["a"], ["1"]⟩] ∧
      takenFrom .back taken = [⟨["a"], ["3"]⟩, ⟨["a"], ["2"]⟩] ∧
      (End.front, none) ∈ taken ∧
      w.takeAll [.back, .front] = ([(.back, none), (.front, none)], w) :=
  ⟨by decide, by decide, by decide,
    ((rows_taken_once threeRows).1 [.front, .back, .back, .front]).2.2.2 .front (by decide) _⟩

end DbClient
