import DbClient.Proofs.Json.Nesting

/-!
# Trees of tokens

The values that tokens write, before anything is made of them: which tokens write a tree
is said by recursion on the tree, without a stack. Reading the tokens of a tree gives what
the reading makes of the tree, and whatever a reading accepts is the tokens of a tree.
-/

namespace DbClient.Json

/-- A JSON value as it is written. Its words, numbers and texts are closed. -/
inductive Tree where
  | word (w : Word)
  | number (n : Numeral)
  | text (pieces : List Piece)
  | array (items : List Tree)
  | object (members : List (List Piece × Tree))

namespace Tree

/-- Token lists with commas between them. -/
def separated (parts : List (List Token)) : List Token :=
  [Token.mark .comma].intercalate parts

mutual

/-- The tokens that write a value. -/
def tokens : Tree → List Token
  | word w => [.word w .closed]
  | number n => [.number n .closed]
  | text pieces => [.text pieces .closed]
  | array items => .mark .openArray :: (separated (itemTokens items) ++ [.mark .closeArray])
  | object members =>
    .mark .openObject :: (separated (memberTokens members) ++ [.mark .closeObject])

/-- The tokens of each item. -/
def itemTokens : List Tree → List (List Token)
  | [] => []
  | t :: items => t.tokens :: itemTokens items

/-- The tokens of each member. -/
def memberTokens : List (List Piece × Tree) → List (List Token)
  | [] => []
  | (pieces, t) :: members =>
    (.text pieces .closed :: .mark .colon :: t.tokens) :: memberTokens members

end

/-- What holds of a container if it holds of what is in it, holds of every value. -/
theorem induction {P : Tree → Prop} (word : ∀ w, P (word w)) (number : ∀ n, P (number n))
    (text : ∀ pieces, P (text pieces))
    (array : ∀ items, (∀ t ∈ items, P t) → P (array items))
    (object : ∀ members, (∀ m ∈ members, P m.2) → P (object members)) (t : Tree) : P t := by
  refine @Tree.rec P (fun items => ∀ t ∈ items, P t) (fun members => ∀ m ∈ members, P m.2)
    (fun m => P m.2) word number text array object ?_ ?_ ?_ ?_ ?_ t
  · simp
  · intro t items ht hitems
    exact List.forall_mem_cons.2 ⟨ht, hitems⟩
  · simp
  · intro m members hm hmembers
    exact List.forall_mem_cons.2 ⟨hm, hmembers⟩
  · intro pieces t ht
    exact ht

end Tree

/-! ## What a reading makes of a tree -/

namespace Reading

variable {α κ : Type}

/-- Whether a container may be opened inside so many others. -/
def fits (r : Reading α κ) (depth : Nat) : Bool :=
  match r.room with
  | some room => depth < room
  | none => true

theorem admits_eq (r : Reading α κ) (stack : List (Level α κ)) :
    r.admits stack = r.fits stack.length := rfl

mutual

/-- What the reading makes of a tree inside so many containers. The first part from the
left that it refuses decides the fault. -/
def eval (r : Reading α κ) (depth : Nat) : Tree → Except Fault α
  | .word w => .ok (r.word w)
  | .number n => r.number n .closed
  | .text pieces => r.text pieces .closed
  | .array items =>
    if r.fits depth then (r.evalItems (depth + 1) items).map r.array else .error .malformed
  | .object members =>
    if r.fits depth then (r.evalMembers (depth + 1) members).map fun ms => r.object ms.reverse
    else .error .malformed

def evalItems (r : Reading α κ) (depth : Nat) : List Tree → Except Fault (List α)
  | [] => .ok []
  | t :: items => do
    let v ← r.eval depth t
    let vs ← r.evalItems depth items
    .ok (v :: vs)

def evalMembers (r : Reading α κ) (depth : Nat) :
    List (List Piece × Tree) → Except Fault (List (κ × α))
  | [] => .ok []
  | (pieces, t) :: members => do
    let n ← r.name pieces .closed
    let v ← r.eval depth t
    let vs ← r.evalMembers depth members
    .ok ((n, v) :: vs)

end

end Reading

/-! ## Reading the tokens of a tree -/

theorem Tree.separated_cons_cons (first second : List Token) (rest : List (List Token)) :
    separated (first :: second :: rest) =
      first ++ .mark .comma :: separated (second :: rest) := by
  rw [separated, List.intercalate_cons_cons, List.append_assoc]
  rfl

theorem Tree.separated_singleton (part : List Token) : separated [part] = part :=
  List.intercalate_singleton

theorem Tree.separated_cons (first : List Token) (parts : List (List Token)) :
    ∃ rest, separated (first :: parts) = first ++ rest := by
  cases parts with
  | nil => exact ⟨[], by rw [separated_singleton, List.append_nil]⟩
  | cons second parts => exact ⟨_, separated_cons_cons first second parts⟩

/-- No value begins with the end of an array. -/
theorem Tree.tokens_eq_cons (t : Tree) :
    ∃ first rest, t.tokens = first :: rest ∧ first ≠ .mark .closeArray := by
  cases t with
  | word | number | text | array | object => exact ⟨_, _, rfl, by simp⟩

section Carried

variable {α κ σ ε : Type}

/-- A machine that carries a reading: while a value is being read it makes the steps of the
reading, and it takes over when the value is complete. -/
structure Carries (r : Reading α κ) (step : σ → Token → Except ε σ) (inside : Awaiting α κ → σ)
    (wrap : Fault → ε) : Prop where
  step : ∀ (s : Awaiting α κ) (t : Token), s.isOpen = true →
    step (inside s) t = ((r.step s t).map inside).mapError wrap

namespace Carries

open Reading (complete)

variable {r : Reading α κ} {step : σ → Token → Except ε σ} {inside : Awaiting α κ → σ}
  {wrap : Fault → ε}

/-- The outcome of a reading, as the machine shows it. -/
def shown (inside : Awaiting α κ → σ) (wrap : Fault → ε) (x : Except Fault (Awaiting α κ)) :
    Except ε σ :=
  (x.map inside).mapError wrap

/-- One token of a value, and the rest of the tokens. -/
theorem foldlM_cons (h : Carries r step inside wrap) {s : Awaiting α κ} (hs : s.isOpen = true)
    (t : Token) (ts : List Token) :
    (t :: ts).foldlM step (inside s) =
      shown inside wrap (r.step s t) >>= fun s' => ts.foldlM step s' := by
  rw [List.foldlM_cons, h.step s t hs]
  rfl

/-- A token that the reading takes. -/
theorem foldlM_cons_ok (h : Carries r step inside wrap) {s : Awaiting α κ} {t : Token}
    (s' : Awaiting α κ) (hs : s.isOpen = true) (hstep : r.step s t = .ok s') (ts : List Token) :
    (t :: ts).foldlM step (inside s) = ts.foldlM step (inside s') := by
  rw [h.foldlM_cons hs, hstep]
  rfl

/-- The first item of an array begins as any other value does. -/
theorem foldlM_firstItem (h : Carries r step inside wrap) (stack : List (Level α κ)) (t : Tree)
    (rest : List Token) :
    (t.tokens ++ rest).foldlM step (inside (.firstItem stack)) =
      (t.tokens ++ rest).foldlM step (inside (.value (.array [] :: stack))) := by
  obtain ⟨first, more, htokens, hfirst⟩ := t.tokens_eq_cons
  have hsame : r.step (.firstItem stack) first = r.step (.value (.array [] :: stack)) first := by
    simp only [Reading.step]
  rw [htokens, List.cons_append, h.foldlM_cons rfl, h.foldlM_cons rfl, hsame]

/-- What is to be shown of a tree: its tokens are read to what the reading makes of it. -/
def ReadsTree (r : Reading α κ) (step : σ → Token → Except ε σ) (inside : Awaiting α κ → σ)
    (wrap : Fault → ε) (t : Tree) : Prop :=
  ∀ stack : List (Level α κ), t.tokens.foldlM step (inside (.value stack)) =
    shown inside wrap ((r.eval stack.length t).map (complete · stack))

/-- The items of an array are read one after another. -/
theorem foldlM_items (h : Carries r step inside wrap) {t : Tree} {items : List Tree}
    (ih : ∀ t' ∈ t :: items, ReadsTree r step inside wrap t') (done : List α)
    (stack : List (Level α κ)) :
    (Tree.separated (Tree.itemTokens (t :: items))).foldlM step
        (inside (.value (.array done :: stack))) =
      shown inside wrap ((r.evalItems (stack.length + 1) (t :: items)).map fun vs =>
        .afterItem (vs.reverse ++ done) stack) := by
  induction items generalizing t done with
  | nil =>
    have hfirst := ih t List.mem_cons_self (.array done :: stack)
    rw [List.length_cons] at hfirst
    rw [Tree.itemTokens, Tree.itemTokens, Tree.separated_singleton, hfirst, Reading.evalItems]
    cases r.eval (stack.length + 1) t <;> rfl
  | cons second items hmore =>
    obtain ⟨hfirst, hrest⟩ := List.forall_mem_cons.1 ih
    replace hfirst := hfirst (.array done :: stack)
    rw [List.length_cons] at hfirst
    rw [Tree.itemTokens, Tree.itemTokens, Tree.separated_cons_cons, List.foldlM_append, hfirst,
      Reading.evalItems]
    cases r.eval (stack.length + 1) t with
    | error fault => rfl
    | ok v =>
      refine (h.foldlM_cons_ok (.value (.array (v :: done) :: stack)) rfl rfl _).trans ?_
      rw [← Tree.itemTokens, hmore hrest (v :: done)]
      cases r.evalItems (stack.length + 1) (second :: items) with
      | error fault => rfl
      | ok vs =>
        show _ = Except.ok (inside (.afterItem ((v :: vs).reverse ++ done) stack))
        rw [List.reverse_cons, List.append_assoc]
        rfl

theorem foldlM_member (h : Carries r step inside wrap) (pieces : List Piece) {t : Tree}
    (ht : ReadsTree r step inside wrap t) (isFirst : Bool) (done : List (κ × α))
    (stack : List (Level α κ)) :
    (Token.text pieces .closed :: .mark .colon :: t.tokens).foldlM step
        (inside (.name isFirst done stack)) =
      shown inside wrap (do
        let n ← r.name pieces .closed
        let v ← r.eval (stack.length + 1) t
        .ok (.afterMember ((n, v) :: done) stack)) := by
  cases hname : r.name pieces .closed with
  | error fault =>
    rw [h.foldlM_cons rfl]
    simp only [Reading.step, hname]
    rfl
  | ok n =>
    have hvalue := ht (.object done n :: stack)
    rw [List.length_cons] at hvalue
    have hstep : r.step (.name isFirst done stack) (.text pieces .closed) =
        .ok (.colon done n stack) := by
      simp only [Reading.step, hname]
      rfl
    rw [h.foldlM_cons_ok _ rfl hstep,
      h.foldlM_cons_ok (.value (.object done n :: stack)) rfl rfl, hvalue]
    cases r.eval (stack.length + 1) t <;> rfl

/-- So are the members of an object. -/
theorem foldlM_members (h : Carries r step inside wrap) {member : List Piece × Tree}
    {members : List (List Piece × Tree)}
    (ih : ∀ m ∈ member :: members, ReadsTree r step inside wrap m.2) (isFirst : Bool)
    (done : List (κ × α)) (stack : List (Level α κ)) :
    (Tree.separated (Tree.memberTokens (member :: members))).foldlM step
        (inside (.name isFirst done stack)) =
      shown inside wrap ((r.evalMembers (stack.length + 1) (member :: members)).map fun vs =>
        .afterMember (vs.reverse ++ done) stack) := by
  obtain ⟨pieces, t⟩ := member
  induction members generalizing pieces t isFirst done with
  | nil =>
    have hmember := h.foldlM_member pieces (ih _ List.mem_cons_self) isFirst done stack
    rw [Tree.memberTokens, Tree.memberTokens, Tree.separated_singleton, hmember,
      Reading.evalMembers]
    cases r.name pieces .closed with
    | error fault => rfl
    | ok n => cases r.eval (stack.length + 1) t <;> rfl
  | cons second members hmore =>
    obtain ⟨hfirst, hrest⟩ := List.forall_mem_cons.1 ih
    have hmember := h.foldlM_member pieces hfirst isFirst done stack
    obtain ⟨pieces', t'⟩ := second
    rw [Tree.memberTokens, Tree.memberTokens, Tree.separated_cons_cons, List.foldlM_append,
      hmember, Reading.evalMembers]
    cases r.name pieces .closed with
    | error fault => rfl
    | ok n =>
      cases r.eval (stack.length + 1) t with
      | error fault => rfl
      | ok v =>
        refine (h.foldlM_cons_ok (.name false ((n, v) :: done) stack) rfl rfl _).trans ?_
        rw [← Tree.memberTokens, hmore false ((n, v) :: done) pieces' t' hrest]
        cases r.evalMembers (stack.length + 1) ((pieces', t') :: members) with
        | error fault => rfl
        | ok vs =>
          show _ = Except.ok (inside (.afterMember (((n, v) :: vs).reverse ++ done) stack))
          rw [List.reverse_cons, List.append_assoc]
          rfl

/-- Reading the tokens of a tree gives what the reading makes of the tree. -/
theorem foldlM_tokens (h : Carries r step inside wrap) (t : Tree) :
    ReadsTree r step inside wrap t := by
  induction t using Tree.induction with
  | word w =>
    intro stack
    rw [Tree.tokens, h.foldlM_cons rfl]
    rfl
  | number n =>
    intro stack
    rw [Tree.tokens, h.foldlM_cons rfl]
    simp only [Reading.step, Reading.beginValue, Reading.eval]
    cases r.number n .closed <;> rfl
  | text pieces =>
    intro stack
    rw [Tree.tokens, h.foldlM_cons rfl]
    simp only [Reading.step, Reading.beginValue, Reading.eval]
    cases r.text pieces .closed <;> rfl
  | array items ih =>
    intro stack
    rw [Tree.tokens, Reading.eval]
    by_cases hfits : r.fits stack.length = true
    · have hopen : r.step (.value stack) (.mark .openArray) = .ok (.firstItem stack) := by
        simp [Reading.step, Reading.beginValue, Reading.admits_eq, hfits]
      rw [if_pos hfits, h.foldlM_cons_ok _ rfl hopen]
      cases items with
      | nil => exact h.foldlM_cons rfl _ []
      | cons t items =>
        obtain ⟨rest, hrest⟩ := Tree.separated_cons t.tokens (Tree.itemTokens items)
        have hitems := h.foldlM_items ih [] stack
        rw [Tree.itemTokens, hrest] at hitems ⊢
        rw [List.foldlM_append, h.foldlM_firstItem, hitems]
        cases r.evalItems (stack.length + 1) (t :: items) with
        | error fault => rfl
        | ok vs =>
          have hclose : r.step (.afterItem (vs.reverse ++ []) stack) (.mark .closeArray) =
              .ok (complete (r.array vs) stack) := by
            simp [Reading.step]
          exact h.foldlM_cons_ok _ rfl hclose []
    · have hfull : r.step (.value stack) (.mark .openArray) = .error .malformed := by
        simp [Reading.step, Reading.beginValue, Reading.admits_eq, hfits]
      rw [if_neg hfits, h.foldlM_cons rfl, hfull]
      rfl
  | object members ih =>
    intro stack
    rw [Tree.tokens, Reading.eval]
    by_cases hfits : r.fits stack.length = true
    · have hopen : r.step (.value stack) (.mark .openObject) = .ok (.name true [] stack) := by
        simp [Reading.step, Reading.beginValue, Reading.admits_eq, hfits]
      rw [if_pos hfits, h.foldlM_cons_ok _ rfl hopen]
      cases members with
      | nil => exact h.foldlM_cons rfl _ []
      | cons member members =>
        rw [List.foldlM_append, h.foldlM_members ih true [] stack]
        cases r.evalMembers (stack.length + 1) (member :: members) with
        | error fault => rfl
        | ok vs =>
          have hclose : r.step (.afterMember (vs.reverse ++ []) stack) (.mark .closeObject) =
              .ok (complete (r.object vs.reverse) stack) := by
            simp [Reading.step]
          exact h.foldlM_cons_ok _ rfl hclose []
    · have hfull : r.step (.value stack) (.mark .openObject) = .error .malformed := by
        simp [Reading.step, Reading.beginValue, Reading.admits_eq, hfits]
      rw [if_neg hfits, h.foldlM_cons rfl, hfull]
      rfl

end Carries

end Carried
end DbClient.Json
