import DbClient.Proofs.Json.Numerals
import DbClient.Proofs.Json.Spelled

/-!
# Values that can be kept

A line is kept as a value by reading the tree that its tokens write. Whether a tree can be kept
is said without the reading: its texts are Unicode, its numbers are in range, and there is room
for its containers inside each other. What is kept does not depend on the containers around it.
-/

namespace DbClient.Json

variable {α κ : Type}

namespace Reading

/-! ## Trees inside containers -/

theorem evalItems_eq_mapM (r : Reading α κ) (depth : Nat) (items : List Tree) :
    r.evalItems depth items = items.mapM (r.eval depth) := by
  induction items with
  | nil => rfl
  | cons t items ih =>
    rw [evalItems, ih, List.mapM_cons]
    rfl

/-- The name of a member with what the reading makes of its value. -/
def evalMember (r : Reading α κ) (depth : Nat) (m : List Piece × Tree) :
    Except Fault (κ × α) := do
  let n ← r.name m.1 .closed
  let v ← r.eval depth m.2
  .ok (n, v)

theorem evalMembers_eq_mapM (r : Reading α κ) (depth : Nat)
    (members : List (List Piece × Tree)) :
    r.evalMembers depth members = members.mapM (r.evalMember depth) := by
  induction members with
  | nil => rfl
  | cons m members ih =>
    rw [evalMembers, ih, List.mapM_cons, evalMember]
    cases r.name m.1 .closed with
    | error fault => rfl
    | ok n => cases r.eval depth m.2 <;> rfl

theorem evalMember_eq_ok_iff {r : Reading α κ} {depth : Nat} {m : List Piece × Tree} {n : κ}
    {v : α} : r.evalMember depth m = .ok (n, v) ↔
      r.name m.1 .closed = .ok n ∧ r.eval depth m.2 = .ok v := by
  rw [evalMember]
  cases r.name m.1 .closed with
  | error fault => simp [bind, Except.bind]
  | ok n => cases r.eval depth m.2 <;> simp [bind, Except.bind]

theorem fits_widen (r : Reading α κ) (depth n : Nat) :
    (r.widen n).fits (depth + n) = r.fits depth := by
  cases h : r.room <;> simp [fits, widen, h]

/-- Inside more containers, with room for as many more, the reading makes the same of a tree. -/
theorem eval_widen (r : Reading α κ) (n depth : Nat) (t : Tree) :
    (r.widen n).eval (depth + n) t = r.eval depth t := by
  induction t using Tree.induction generalizing depth with
  | word | number | text => rfl
  | array items ih =>
    have hitems : (r.widen n).evalItems (depth + n + 1) items = r.evalItems (depth + 1) items := by
      rw [evalItems_eq_mapM, evalItems_eq_mapM, Nat.add_right_comm]
      exact mapM_congr fun t ht => ih t ht (depth + 1)
    rw [eval, eval, fits_widen, hitems]
    rfl
  | object members ih =>
    have hmembers :
        (r.widen n).evalMembers (depth + n + 1) members = r.evalMembers (depth + 1) members := by
      rw [evalMembers_eq_mapM, evalMembers_eq_mapM, Nat.add_right_comm]
      refine mapM_congr fun m hm => ?_
      rw [evalMember, evalMember, ih m hm (depth + 1)]
      rfl
    rw [eval, eval, fits_widen, hmembers]
    rfl

/-! ## What can be kept -/

end Reading

/-- The pieces of a text that is valid as Unicode: its bytes are UTF-8, and its surrogates are
paired. -/
def IsUnicode (pieces : List Piece) : Prop :=
  ∃ s, keepText pieces .closed = .ok s

/-- A value that can be kept where `room` more containers may be opened inside each other. -/
inductive Tree.Keepable : Nat → Tree → Prop
  | word (room : Nat) (w : Word) : Keepable room (word w)
  | number (room : Nat) {n : Numeral} (h : n.InRange) : Keepable room (number n)
  | text (room : Nat) {pieces : List Piece} (h : IsUnicode pieces) : Keepable room (text pieces)
  | array {room : Nat} {items : List Tree} (h : ∀ t ∈ items, Keepable room t) :
    Keepable (room + 1) (array items)
  | object {room : Nat} {members : List (List Piece × Tree)}
    (hnames : ∀ m ∈ members, IsUnicode m.1) (h : ∀ m ∈ members, Keepable room m.2) :
    Keepable (room + 1) (object members)

namespace Reading

theorem eval_kept_succ (room : Nat) (t : Tree) :
    (kept (room + 1)).eval 1 t = (kept room).eval 0 t := by
  have h := (kept room).eval_widen 1 0 t
  rwa [kept_widen, Nat.zero_add] at h

/-- The items of an array are kept with room for one container less. -/
theorem eval_kept_array (room : Nat) (items : List Tree) :
    (kept (room + 1)).eval 0 (.array items) =
      (items.mapM ((kept room).eval 0)).map Json.array := by
  have hfits : (kept (room + 1)).fits 0 = true := decide_eq_true (Nat.succ_pos room)
  have hitem : (kept (room + 1)).eval (0 + 1) = (kept room).eval 0 :=
    funext (eval_kept_succ room)
  rw [eval, if_pos hfits, evalItems_eq_mapM, hitem]
  rfl

/-- So are the members of an object, under their names. -/
theorem eval_kept_object (room : Nat) (members : List (List Piece × Tree)) :
    (kept (room + 1)).eval 0 (.object members) =
      (members.mapM ((kept room).evalMember 0)).map fun ms =>
        .object (NameMap.ofNewest ms.reverse) := by
  have hfits : (kept (room + 1)).fits 0 = true := decide_eq_true (Nat.succ_pos room)
  have hmember : (kept (room + 1)).evalMember (0 + 1) = (kept room).evalMember 0 := by
    funext m
    simp only [evalMember, Nat.zero_add, eval_kept_succ]
    rfl
  rw [eval, if_pos hfits, evalMembers_eq_mapM, hmember]
  rfl

theorem exists_eval_array_iff {room : Nat} {items : List Tree} :
    (∃ v, (kept (room + 1)).eval 0 (.array items) = .ok v) ↔
      ∀ t ∈ items, ∃ v, (kept room).eval 0 t = .ok v := by
  rw [← exists_mapM_ok_iff, eval_kept_array]
  cases items.mapM ((kept room).eval 0) <;> simp [Except.map]

theorem exists_eval_object_iff {room : Nat} {members : List (List Piece × Tree)} :
    (∃ v, (kept (room + 1)).eval 0 (.object members) = .ok v) ↔
      ∀ m ∈ members, IsUnicode m.1 ∧ ∃ v, (kept room).eval 0 m.2 = .ok v := by
  have hmember : ∀ m, (∃ entry, (kept room).evalMember 0 m = .ok entry) ↔
      IsUnicode m.1 ∧ ∃ v, (kept room).eval 0 m.2 = .ok v := by
    intro m
    simp only [Prod.exists, evalMember_eq_ok_iff, exists_and_left, exists_and_right]
    rfl
  simp only [← hmember]
  rw [← exists_mapM_ok_iff, eval_kept_object]
  cases members.mapM ((kept room).evalMember 0) <;> simp [Except.map]

/-- Keeping a value succeeds exactly if it can be kept. -/
theorem exists_eval_kept_iff {room : Nat} {t : Tree} :
    (∃ v, (kept room).eval 0 t = .ok v) ↔ t.Keepable room := by
  induction t using Tree.induction generalizing room with
  | word w => exact ⟨fun _ => .word room w, fun _ => ⟨_, rfl⟩⟩
  | number n =>
    have hnumber : (kept room).eval 0 (.number n) = keepNumber n .closed := rfl
    rw [hnumber, ← Numeral.inRange_iff]
    refine ⟨.number room, ?_⟩
    rintro ⟨⟩
    assumption
  | text pieces =>
    constructor
    · rintro ⟨v, h⟩
      obtain ⟨s, hs, -⟩ := exists_of_map_ok h
      exact .text room ⟨s, hs⟩
    · rintro ⟨⟩
      rename_i h
      obtain ⟨s, hs⟩ := h
      exact ⟨.string s, congrArg (Except.map Json.string) hs⟩
  | array items ih =>
    -- a container takes one room, so without room neither side has one
    cases room with
    | zero => exact ⟨nofun, nofun⟩
    | succ room =>
      rw [exists_eval_array_iff]
      constructor
      · intro h
        exact .array fun t ht => (ih t ht).1 (h t ht)
      · rintro ⟨⟩
        rename_i h
        exact fun t ht => (ih t ht).2 (h t ht)
  | object members ih =>
    cases room with
    | zero => exact ⟨nofun, nofun⟩
    | succ room =>
      rw [exists_eval_object_iff]
      constructor
      · intro h
        exact .object (fun m hm => (h m hm).1) fun m hm => (ih m hm).1 (h m hm).2
      · rintro ⟨⟩
        rename_i hnames h
        exact fun m hm => ⟨hnames m hm, (ih m hm).2 (h m hm)⟩

/-! ## Lines -/

theorem run_eq_foldlM (r : Reading α κ) (s : Awaiting α κ) (ts : List Token) :
    r.run s ts = ts.foldlM r.step s >>= fun
      | .nothing v => .ok v
      | _ => .error .incomplete := by
  induction ts generalizing s with
  | nil => cases s <;> rfl
  | cons t ts ih =>
    have hrun : r.run s (t :: ts) = r.step s t >>= fun s' => r.run s' ts := by
      cases s <;> rfl
    rw [hrun, List.foldlM_cons]
    cases r.step s t with
    | error fault => rfl
    | ok s' => exact ih s'

theorem carries_self (r : Reading α κ) : Carries r r.step id id where
  step s t _ := by
    cases h : r.step s t <;> simp [h, Except.map, Except.mapError]

/-- A reading makes of the tokens of a tree what it makes of the tree. -/
theorem run_tokens (r : Reading α κ) (t : Tree) : r.run (.value []) t.tokens = r.eval 0 t := by
  have htokens := r.carries_self.foldlM_tokens t []
  rw [run_eq_foldlM]
  simp only [id_eq] at htokens
  rw [htokens]
  rw [List.length_nil]
  cases r.eval 0 t <;> rfl

end Reading

/-- A line is kept as what is kept of the tree that it writes. -/
theorem read_eq_eval {line : Bytes} {t : Tree} (h : scan line = t.tokens) :
    read line = (Reading.kept maxDepth).eval 0 t := by
  rw [read, h, Reading.run_tokens]

end DbClient.Json
