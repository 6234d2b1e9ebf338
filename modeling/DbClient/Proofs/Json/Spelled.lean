import DbClient.Proofs.Json.Tree

/-!
# What has been read

At every point of the grammar the tokens that have been read are known up to the values
in them: the containers that are open, and in each of them the trees that are complete.
Where nothing more is due, they are the tokens of one tree.
-/

namespace DbClient.Json

variable {α κ : Type}

namespace Tree

theorem itemTokens_eq_map (items : List Tree) : itemTokens items = items.map tokens := by
  induction items with
  | nil => rfl
  | cons t items ih => rw [itemTokens, ih, List.map_cons]

/-- The tokens of one member. -/
def memberToken (m : List Piece × Tree) : List Token :=
  .text m.1 .closed :: .mark .colon :: m.2.tokens

theorem memberTokens_eq_map (members : List (List Piece × Tree)) :
    memberTokens members = members.map memberToken := by
  induction members with
  | nil => rfl
  | cons m members ih => rw [memberTokens, ih, List.map_cons, memberToken]

/-- Token lists with a comma after each. -/
def followed (parts : List (List Token)) : List Token :=
  parts.flatMap (· ++ [.mark .comma])

theorem separated_concat (parts : List (List Token)) (last : List Token) :
    separated (parts ++ [last]) = followed parts ++ last := by
  induction parts with
  | nil => exact separated_singleton last
  | cons first parts ih =>
    have hcons : ∃ second rest, parts ++ [last] = second :: rest := by
      cases parts with
      | nil => exact ⟨last, [], rfl⟩
      | cons second parts => exact ⟨second, parts ++ [last], rfl⟩
    obtain ⟨second, rest, hrest⟩ := hcons
    rw [List.cons_append, hrest, separated_cons_cons, ← hrest, ih]
    simp [followed]

theorem separated_concat_comma (parts : List (List Token)) (last : List Token) :
    separated (parts ++ [last]) ++ [.mark .comma] = followed (parts ++ [last]) := by
  rw [separated_concat]
  simp [followed]

section Concat

variable (items : List Tree) (last : Tree) (members : List (List Piece × Tree))
  (lastMember : List Piece × Tree)

theorem separated_items :
    separated (itemTokens (items ++ [last])) = followed (itemTokens items) ++ last.tokens := by
  simp only [itemTokens_eq_map, List.map_append, List.map_singleton, separated_concat]

theorem separated_items_comma :
    separated (itemTokens (items ++ [last])) ++ [.mark .comma] =
      followed (itemTokens (items ++ [last])) := by
  simp only [itemTokens_eq_map, List.map_append, List.map_singleton, separated_concat_comma]

theorem separated_members :
    separated (memberTokens (members ++ [lastMember])) =
      followed (memberTokens members) ++ memberToken lastMember := by
  simp only [memberTokens_eq_map, List.map_append, List.map_singleton, separated_concat]

theorem separated_members_comma :
    separated (memberTokens (members ++ [lastMember])) ++ [.mark .comma] =
      followed (memberTokens (members ++ [lastMember])) := by
  simp only [memberTokens_eq_map, List.map_append, List.map_singleton, separated_concat_comma]

end Concat

end Tree

open DbClient.Json.Tree (separated followed itemTokens memberTokens)

/-! ## Readings of closed tokens -/

/-- A reading that takes numbers, texts and names only if they are closed. -/
structure Reading.TakesClosed (r : Reading α κ) : Prop where
  number : ∀ {n e v}, r.number n e = .ok v → e = .closed
  text : ∀ {pieces e v}, r.text pieces e = .ok v → e = .closed
  name : ∀ {pieces e n}, r.name pieces e = .ok n → e = .closed

theorem closed_of_check {e : Ending} {u : Unit} (h : e.check = .ok u) : e = .closed := by
  cases e with
  | closed => rfl
  | _ => cases h

theorem Reading.kept_takesClosed (room : Nat) : (kept room).TakesClosed where
  number := closed_of_keepNumber
  text := by
    intro pieces e v h
    obtain ⟨s, hkeep, -⟩ := exists_of_map_ok h
    exact closed_of_keepText hkeep
  name := closed_of_keepText

theorem Reading.skipped_takesClosed : skipped.TakesClosed where
  number := by
    intro n e v h
    simp only [skipped] at h
    split at h
    · assumption
    · cases h
  text := closed_of_check
  name := closed_of_check

/-! ## Points of the grammar -/

/-- The tokens that have opened the containers of a stack, with what is complete in each
of them. A value is due after them. -/
inductive Opened : List (Level α κ) → List Token → Prop
  | none : Opened [] []
  | array {stack : List (Level α κ)} {before : List Token} (h : Opened stack before)
    (done : List α) (items : List Tree) :
    Opened (.array done :: stack) (before ++ .mark .openArray :: followed (itemTokens items))
  | object {stack : List (Level α κ)} {before : List Token} (h : Opened stack before)
    (done : List (κ × α)) (n : κ) (members : List (List Piece × Tree)) (pieces : List Piece) :
    Opened (.object done n :: stack)
      (before ++ .mark .openObject ::
        (followed (memberTokens members) ++ [.text pieces .closed, .mark .colon]))

/-- The tokens that have been read at a point of the grammar. -/
inductive Spelled : Awaiting α κ → List Token → Prop
  | value {stack : List (Level α κ)} {before : List Token} (h : Opened stack before) :
    Spelled (.value stack) before
  | firstItem {stack : List (Level α κ)} {before : List Token} (h : Opened stack before) :
    Spelled (.firstItem stack) (before ++ [.mark .openArray])
  | name {stack : List (Level α κ)} {before : List Token} (h : Opened stack before)
    (isFirst : Bool) (done : List (κ × α)) (members : List (List Piece × Tree))
    (hfirst : isFirst = true → members = []) :
    Spelled (.name isFirst done stack)
      (before ++ .mark .openObject :: followed (memberTokens members))
  | colon {stack : List (Level α κ)} {before : List Token} (h : Opened stack before)
    (done : List (κ × α)) (n : κ) (members : List (List Piece × Tree)) (pieces : List Piece) :
    Spelled (.colon done n stack)
      (before ++ .mark .openObject ::
        (followed (memberTokens members) ++ [.text pieces .closed]))
  | afterItem {stack : List (Level α κ)} {before : List Token} (h : Opened stack before)
    (done : List α) (items : List Tree) (last : Tree) :
    Spelled (.afterItem done stack)
      (before ++ .mark .openArray :: separated (itemTokens (items ++ [last])))
  | afterMember {stack : List (Level α κ)} {before : List Token} (h : Opened stack before)
    (done : List (κ × α)) (members : List (List Piece × Tree)) (last : List Piece × Tree) :
    Spelled (.afterMember done stack)
      (before ++ .mark .openObject :: separated (memberTokens (members ++ [last])))
  | nothing (v : α) (t : Tree) : Spelled (.nothing v) t.tokens

/-- A tree is complete: it becomes part of the container around it. -/
theorem Opened.complete {stack : List (Level α κ)} {before : List Token} (h : Opened stack before)
    (v : α) (t : Tree) : Spelled (Reading.complete v stack) (before ++ t.tokens) := by
  cases h with
  | none => exact .nothing v t
  | @array stack before h done items =>
    have hspelled := Spelled.afterItem h (v :: done) items t
    rw [Tree.separated_items] at hspelled
    rw [List.append_assoc, List.cons_append]
    exact hspelled
  | @object stack before h done n members pieces =>
    have hspelled := Spelled.afterMember h ((n, v) :: done) members (pieces, t)
    rw [Tree.separated_members] at hspelled
    rw [List.append_assoc, List.cons_append, List.append_assoc]
    exact hspelled

namespace Spelled

variable {r : Reading α κ} {s s' : Awaiting α κ} {before : List Token} {t : Token}

theorem beginValue (hr : r.TakesClosed) {stack : List (Level α κ)} (h : Opened stack before)
    (hbegin : r.beginValue stack t = .ok s') : Spelled s' (before ++ [t]) := by
  cases t with
  | word w e =>
    simp only [Reading.beginValue] at hbegin
    obtain ⟨_, hcheck, hbegin⟩ := exists_of_bind_ok hbegin
    cases closed_of_check hcheck
    cases hbegin
    exact h.complete _ (.word w)
  | number n e =>
    simp only [Reading.beginValue] at hbegin
    obtain ⟨v, hnumber, hbegin⟩ := exists_of_bind_ok hbegin
    cases hbegin
    cases hr.number hnumber
    exact h.complete v (.number n)
  | text pieces e =>
    simp only [Reading.beginValue] at hbegin
    obtain ⟨v, htext, hbegin⟩ := exists_of_bind_ok hbegin
    cases hbegin
    cases hr.text htext
    exact h.complete v (.text pieces)
  | stray => cases hbegin
  | mark m =>
    cases m with
    | openArray =>
      rw [Reading.beginValue] at hbegin
      split at hbegin <;> cases hbegin
      exact .firstItem h
    | openObject =>
      rw [Reading.beginValue] at hbegin
      split at hbegin <;> cases hbegin
      exact .name h true [] [] fun _ => rfl
    | _ => cases hbegin

/-- One more token. -/
theorem step (hr : r.TakesClosed) (h : Spelled s before) (hstep : r.step s t = .ok s') :
    Spelled s' (before ++ [t]) := by
  cases Reading.stepped_of_step hstep with
  | begun hbegin =>
    cases h with
    | value h => exact beginValue hr h hbegin
  | firstBegun _ hbegin =>
    cases h with
    | firstItem h => exact beginValue hr (.array h [] []) hbegin
  | noItem =>
    cases h with
    | firstItem h =>
      rw [List.append_assoc]
      exact h.complete _ (.array [])
  | named hname =>
    cases hr.name hname
    cases h with
    | name h _ _ members =>
      rw [List.append_assoc, List.cons_append]
      exact .colon h _ _ members _
  | noMember =>
    cases h with
    | name h _ _ members hfirst =>
      cases hfirst rfl
      rw [List.append_assoc]
      exact h.complete _ (.object [])
  | colon =>
    cases h with
    | colon h _ _ members pieces =>
      rw [List.append_assoc, List.cons_append, List.append_assoc]
      exact .value (.object h _ _ members pieces)
  | nextItem =>
    cases h with
    | afterItem h _ items last =>
      rw [List.append_assoc, List.cons_append, Tree.separated_items_comma]
      exact .value (.array h _ (items ++ [last]))
  | lastItem =>
    cases h with
    | afterItem h _ items last =>
      rw [List.append_assoc, List.cons_append]
      exact h.complete _ (.array (items ++ [last]))
  | nextMember =>
    cases h with
    | afterMember h _ members last =>
      rw [List.append_assoc, List.cons_append, Tree.separated_members_comma]
      exact .name h false _ (members ++ [last]) (by simp)
  | lastMember =>
    cases h with
    | afterMember h _ members last =>
      rw [List.append_assoc, List.cons_append]
      exact h.complete _ (.object (members ++ [last]))

theorem of_nothing {v : α} (h : Spelled (κ := κ) (.nothing v) before) :
    ∃ t : Tree, before = t.tokens := by
  cases h with
  | nothing _ t => exact ⟨t, rfl⟩

end Spelled
end DbClient.Json
