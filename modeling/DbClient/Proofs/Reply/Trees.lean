import DbClient.Proofs.Json.Spelled
import DbClient.Reply.Envelope

/-!
# Envelopes and trees

What a line is as an envelope, said of the tree that its tokens write: the members of an
object are read one after another, and so are the items of an array. The reader of
envelopes gives exactly this, and refuses every line whose tokens write no tree.
-/

namespace DbClient

/-- The token that a value begins with. -/
def Json.Tree.first : Json.Tree → Json.Token
  | word w => .word w .closed
  | number n => .number n .closed
  | text pieces => .text pieces .closed
  | array _ => .mark .openArray
  | object _ => .mark .openObject

theorem Json.Tree.tokens_eq_first_cons (t : Json.Tree) : ∃ rest, t.tokens = t.first :: rest := by
  cases t <;> exact ⟨_, rfl⟩

namespace Envelope

open Json (Token Tree Reading Fault Piece)

/-! ## What is made of a tree -/

/-- The fields after the value of one of them. -/
def readField (slot : Slot) (f : Fields) (t : Tree) : Except Problem Fields :=
  match slot with
  | .success => (readTruth t.first).map fun b => { f with success := some b }
  | .kind => (readText? t.first).map fun s => { f with kind := some s }
  | .error => (readText? t.first).map fun s => { f with error := some s }
  | .result =>
    ofFault ((resultReading.eval 0 t).map fun v => { f with result := some (result? v) })
  | .other => ofFault ((Reading.skipped.eval 0 t).map fun _ => f)

/-- The fields after one more member. -/
def readMember (f : Fields) (member : List Piece × Tree) : Except Problem Fields := do
  let slot := Slot.ofName (← ofFault (Json.keepText member.1 .closed))
  match f.repeated? slot with
  | some name => .error (.mismatch (.duplicateField name))
  | none => readField slot f member.2

/-- The fields of items that give them by position. There may be fewer items than fields,
and not more. -/
def readItems : List Slot → Fields → List Tree → Except Problem Fields
  | _, f, [] => .ok f
  | [], _, _ :: _ => .error (.fault .malformed)
  | slot :: due, f, t :: items => do readItems due (← readField slot f t) items

/-- The fields in the order in which an array gives them. -/
def positions : List Slot := [.success, .kind, .result, .error]

/-- The envelope that a tree is. -/
def readTree : Tree → Except Problem Envelope
  | .object members => (members.foldlM readMember .empty).map Fields.toEnvelope
  | .array items => (readItems positions .empty items).map Fields.toEnvelope
  | t => .error (unwanted .envelope t.first)

theorem exists_of_ofFault_ok {α : Type} {x : Except Json.Fault α} {a : α}
    (h : ofFault x = .ok a) : x = .ok a := by
  cases x with
  | error fault => cases h
  | ok b =>
    cases h
    rfl

theorem exists_of_readMember {f f' : Fields} {pieces : List Piece} {t : Tree}
    (h : readMember f (pieces, t) = .ok f') :
    ∃ name, Json.keepText pieces .closed = .ok name ∧ f.repeated? (.ofName name) = none ∧
      readField (.ofName name) f t = .ok f' := by
  obtain ⟨name, hname, hmember⟩ := exists_of_bind_ok h
  refine ⟨name, exists_of_ofFault_ok hname, ?_⟩
  dsimp only at hmember
  cases hrepeated : f.repeated? (.ofName name) with
  | some again =>
    rw [hrepeated] at hmember
    cases hmember
  | none =>
    rw [hrepeated] at hmember
    exact ⟨rfl, hmember⟩

/-- A member whose field has not been given. -/
theorem readMember_of_fresh {f : Fields} {pieces : List Piece} {name : String}
    (hname : Json.keepText pieces .closed = .ok name) (hfresh : f.repeated? (.ofName name) = none)
    (t : Tree) : readMember f (pieces, t) = readField (.ofName name) f t := by
  rw [readMember, hname]
  simp only [ofFault, bind, Except.bind, hfresh]

/-! ## Reading the tokens of a tree -/

/-- The envelope at the end of the tokens. -/
def finish : Awaiting → Except Problem Envelope
  | .nothing f => .ok f.toEnvelope
  | _ => .error (.fault .incomplete)

theorem run_eq_foldlM (s : Awaiting) (ts : List Token) :
    run s ts = ts.foldlM step s >>= finish := by
  induction ts generalizing s with
  | nil => cases s <;> rfl
  | cons t ts ih =>
    have hrun : run s (t :: ts) = step s t >>= fun s' => run s' ts := by
      cases s <;> rfl
    rw [hrun, List.foldlM_cons]
    cases step s t with
    | error problem => rfl
    | ok s' => exact ih s'

section Values

variable (place : Place) (f : Fields)

/-- The points inside a result, as points of the line. -/
def insideResult : Json.Awaiting Json String → Awaiting
  | .nothing v => .next place { f with result := some (result? v) }
  | s => .inResult s place f

/-- The points inside a value that is passed over. -/
def insideOther : Json.Awaiting Unit Unit → Awaiting
  | .nothing () => .next place f
  | s => .inOther s place f

theorem carries_result : Json.Carries resultReading step (insideResult place f) .fault where
  step s t hs := by
    have hstep : step (insideResult place f s) t = stepResult s place f t := by
      cases s with
      | nothing v => cases hs
      | _ => rfl
    rw [hstep, stepResult]
    rcases resultReading.step s t with fault | s'
    · rfl
    · cases s' <;> rfl

theorem carries_other : Json.Carries Reading.skipped step (insideOther place f) .fault where
  step s t hs := by
    have hstep : step (insideOther place f s) t = stepOther s place f t := by
      cases s with
      | nothing v => cases hs
      | _ => rfl
    rw [hstep, stepOther]
    rcases Reading.skipped.step s t with fault | s'
    · rfl
    · cases s' <;> rfl

/-- A token stands alone where only a word or a text may stand. -/
theorem foldlM_scalar {α : Type} (read : Token → Except Problem α) (next : α → Awaiting)
    (t : Tree) (s : Awaiting) (hstep : ∀ token, step s token = (read token).map next)
    (hcontainer : ∀ m a, read (.mark m) ≠ .ok a) :
    t.tokens.foldlM step s = (read t.first).map next := by
  cases t with
  | word | number | text =>
    rw [Tree.tokens, List.foldlM_cons, hstep, Tree.first]
    cases read _ <;> rfl
  | array | object =>
    rw [Tree.tokens, List.foldlM_cons, hstep, Tree.first]
    cases hread : read _ with
    | error problem => rfl
    | ok a => exact absurd hread (hcontainer _ a)

/-- The value of a field. -/
theorem foldlM_value (slot : Slot) (t : Tree) :
    t.tokens.foldlM step (.value slot place f) = (readField slot f t).map (.next place) := by
  obtain ⟨rest, hfirst⟩ := t.tokens_eq_first_cons
  cases slot with
  | success =>
    rw [foldlM_scalar readTruth (fun b => .next place { f with success := some b }) t _
      (fun _ => rfl) (by intro m a h; cases h), readField]
    cases readTruth t.first <;> rfl
  | kind =>
    rw [foldlM_scalar readText? (fun s => .next place { f with kind := some s }) t _
      (fun _ => rfl) (by intro m a h; cases h), readField]
    cases readText? t.first <;> rfl
  | error =>
    rw [foldlM_scalar readText? (fun s => .next place { f with error := some s }) t _
      (fun _ => rfl) (by intro m a h; cases h), readField]
    cases readText? t.first <;> rfl
  | result =>
    -- the first token leads inside the result, as it does for a result that has begun
    have hbegun : t.tokens.foldlM step (.value .result place f) =
        t.tokens.foldlM step (insideResult place f (.value [])) := by
      rw [hfirst, List.foldlM_cons, List.foldlM_cons]
      rfl
    rw [hbegun, (carries_result place f).foldlM_tokens t [], List.length_nil, readField]
    cases resultReading.eval 0 t <;> rfl
  | other =>
    have hbegun : t.tokens.foldlM step (.value .other place f) =
        t.tokens.foldlM step (insideOther place f (.value [])) := by
      rw [hfirst, List.foldlM_cons, List.foldlM_cons]
      rfl
    rw [hbegun, (carries_other place f).foldlM_tokens t [], List.length_nil, readField]
    cases Reading.skipped.eval 0 t <;> rfl

end Values

/-- One member, where a name is due. -/
theorem foldlM_member (isFirst : Bool) (f : Fields) (member : List Piece × Tree) :
    (Tree.memberToken member).foldlM step (.name isFirst f) =
      (readMember f member).map (.next .member) := by
  have hname : ∀ ts : List Token,
      (Token.text member.1 .closed :: ts).foldlM step (.name isFirst f) =
        beginMember f member.1 .closed >>= fun s => ts.foldlM step s := by
    intro ts
    cases isFirst <;> rfl
  rw [Tree.memberToken, hname, beginMember, readMember]
  cases ofFault (Json.keepText member.1 .closed) with
  | error problem => rfl
  | ok name =>
    simp only [bind, Except.bind]
    cases f.repeated? (Slot.ofName name) with
    | some again => rfl
    | none => exact foldlM_value .member f (Slot.ofName name) member.2

theorem foldlM_members (isFirst : Bool) (f : Fields) (member : List Piece × Tree)
    (members : List (List Piece × Tree)) :
    (Tree.separated (Tree.memberTokens (member :: members))).foldlM step (.name isFirst f) =
      ((member :: members).foldlM readMember f).map (.next .member) := by
  rw [Tree.memberTokens_eq_map, List.map_cons]
  induction members generalizing isFirst f member with
  | nil =>
    rw [List.map_nil, Tree.separated_singleton, foldlM_member, List.foldlM_cons]
    cases readMember f member <;> rfl
  | cons second members ih =>
    rw [List.map_cons, Tree.separated_cons_cons, List.foldlM_append, foldlM_member,
      List.foldlM_cons]
    cases readMember f member with
    | error problem => rfl
    | ok f' => exact ih false f' second

/-- The items of an array, from the slot of the first of them on. -/
theorem foldlM_items (slot : Slot) (due : List Slot) (f : Fields) (t : Tree) (items : List Tree) :
    (Tree.separated (Tree.itemTokens (t :: items)) ++ [Token.mark .closeArray]).foldlM step
        (.value slot (.item due) f) =
      (readItems (slot :: due) f (t :: items)).map .nothing := by
  induction items generalizing slot due f t with
  | nil =>
    rw [Tree.itemTokens, Tree.itemTokens, Tree.separated_singleton, List.foldlM_append,
      foldlM_value, readItems]
    cases readField slot f t with
    | error problem => rfl
    | ok f' => cases due <;> rfl
  | cons second items ih =>
    rw [Tree.itemTokens, Tree.itemTokens, Tree.separated_cons_cons, List.append_assoc,
      List.foldlM_append, foldlM_value, readItems, ← Tree.itemTokens]
    cases readField slot f t with
    | error problem => rfl
    | ok f' =>
      cases due with
      | nil => rfl
      | cons slot' due => exact ih slot' due f' second

/-- The first item gives the first field. -/
theorem foldlM_firstItem (t : Tree) (items : List Tree) (ts : List Token) :
    (Tree.separated (Tree.itemTokens (t :: items)) ++ ts).foldlM step .firstItem =
      (Tree.separated (Tree.itemTokens (t :: items)) ++ ts).foldlM step
        (.value .success (.item [.kind, .result, .error]) .empty) := by
  obtain ⟨more, hmore⟩ := Tree.separated_cons t.tokens (Tree.itemTokens items)
  obtain ⟨rest, hfirst⟩ := t.tokens_eq_first_cons
  have hstep : step .firstItem t.first =
      step (.value .success (.item [.kind, .result, .error]) .empty) t.first := by
    cases t <;> rfl
  rw [Tree.itemTokens, hmore, hfirst, List.cons_append, List.cons_append, List.foldlM_cons,
    List.foldlM_cons, hstep]

/-- The reader of envelopes makes of the tokens of a tree what the tree is. -/
theorem run_tokens (t : Tree) : run .line t.tokens = readTree t := by
  rw [run_eq_foldlM]
  cases t with
  | word | number | text => rfl
  | object members =>
    cases members with
    | nil => rfl
    | cons member members =>
      rw [Tree.tokens, List.foldlM_cons]
      show ((_ : List Token).foldlM step (.name true .empty)) >>= finish = _
      rw [List.foldlM_append, foldlM_members, readTree]
      cases (member :: members).foldlM readMember .empty <;> rfl
  | array items =>
    cases items with
    | nil => rfl
    | cons t items =>
      rw [Tree.tokens, List.foldlM_cons]
      show ((_ : List Token).foldlM step .firstItem) >>= finish = _
      rw [foldlM_firstItem, foldlM_items, readTree, positions]
      cases readItems [.success, .kind, .result, .error] .empty (t :: items) <;> rfl

/-! ## Lines that are read -/

/-- The tokens before a value, with what is complete in the object or array around it. -/
inductive Around : Place → List Token → Prop
  | member (members : List (List Piece × Tree)) (pieces : List Piece) :
    Around .member (.mark .openObject ::
      (Tree.followed (Tree.memberTokens members) ++ [.text pieces .closed, .mark .colon]))
  | item (due : List Slot) (items : List Tree) :
    Around (.item due) (.mark .openArray :: Tree.followed (Tree.itemTokens items))

/-- The tokens that have been read at a point of the line. -/
inductive Spelled : Awaiting → List Token → Prop
  | line : Spelled .line []
  | name (isFirst : Bool) (f : Fields) (members : List (List Piece × Tree))
    (hfirst : isFirst = true → members = []) :
    Spelled (.name isFirst f)
      (.mark .openObject :: Tree.followed (Tree.memberTokens members))
  | colon (slot : Slot) (f : Fields) (members : List (List Piece × Tree)) (pieces : List Piece) :
    Spelled (.colon slot f) (.mark .openObject ::
      (Tree.followed (Tree.memberTokens members) ++ [.text pieces .closed]))
  | firstItem : Spelled .firstItem [.mark .openArray]
  | value {place : Place} {before : List Token} (slot : Slot) (f : Fields)
    (h : Around place before) : Spelled (.value slot place f) before
  | inResult {place : Place} {before ts : List Token} {s : Json.Awaiting Json String} (f : Fields)
    (h : Around place before) (hs : Json.Spelled s ts) :
    Spelled (.inResult s place f) (before ++ ts)
  | inOther {place : Place} {before ts : List Token} {s : Json.Awaiting Unit Unit} (f : Fields)
    (h : Around place before) (hs : Json.Spelled s ts) :
    Spelled (.inOther s place f) (before ++ ts)
  | next {place : Place} {before : List Token} (f : Fields) (h : Around place before) (t : Tree) :
    Spelled (.next place f) (before ++ t.tokens)
  | nothing (f : Fields) (t : Tree) : Spelled (.nothing f) t.tokens

namespace Spelled

variable {s s' : Awaiting} {before ts : List Token} {t : Token} {place : Place} {slot : Slot}
  {f : Fields}

theorem stepResult {j : Json.Awaiting Json String} (h : Around place before)
    (hs : Json.Spelled j ts) (hstep : stepResult j place f t = .ok s') :
    Spelled s' (before ++ (ts ++ [t])) := by
  unfold Envelope.stepResult at hstep
  split at hstep
  · cases hstep
  · rename_i v hread
    cases hstep
    obtain ⟨tree, htree⟩ := (hs.step (Reading.kept_takesClosed _) hread).of_nothing
    rw [htree]
    exact .next _ h tree
  · rename_i j' _ hread
    cases hstep
    exact .inResult f h (hs.step (Reading.kept_takesClosed _) hread)

theorem stepOther {j : Json.Awaiting Unit Unit} (h : Around place before)
    (hs : Json.Spelled j ts) (hstep : stepOther j place f t = .ok s') :
    Spelled s' (before ++ (ts ++ [t])) := by
  unfold Envelope.stepOther at hstep
  split at hstep
  · cases hstep
  · rename_i hread
    cases hstep
    obtain ⟨tree, htree⟩ := (hs.step Reading.skipped_takesClosed hread).of_nothing
    rw [htree]
    exact .next _ h tree
  · rename_i j' _ hread
    cases hstep
    exact .inOther f h (hs.step Reading.skipped_takesClosed hread)

theorem exists_of_readTruth {b : Bool} (h : readTruth t = .ok b) :
    ∃ tree : Tree, [t] = tree.tokens := by
  unfold readTruth at h
  split at h
  · exact ⟨.word _, rfl⟩
  · cases h

theorem exists_of_readText? {text : Option String} (h : readText? t = .ok text) :
    ∃ tree : Tree, [t] = tree.tokens := by
  unfold readText? at h
  split at h
  · exact ⟨.word .null, rfl⟩
  · rename_i pieces e
    cases hkeep : Json.keepText pieces e with
    | error fault =>
      rw [hkeep] at h
      cases h
    | ok kept =>
      cases Json.closed_of_keepText hkeep
      exact ⟨.text pieces, rfl⟩
  · cases h

theorem beginValue (h : Around place before) (hstep : beginValue slot place f t = .ok s') :
    Spelled s' (before ++ [t]) := by
  have scalar : ∀ {f' : Fields}, (∃ tree : Tree, [t] = tree.tokens) →
      Spelled (.next place f') (before ++ [t]) := by
    rintro f' ⟨tree, htree⟩
    rw [htree]
    exact .next f' h tree
  cases slot with
  | success =>
    obtain ⟨b, hread, rfl⟩ := exists_of_map_ok hstep
    exact scalar (exists_of_readTruth hread)
  | kind | error =>
    obtain ⟨text, hread, rfl⟩ := exists_of_map_ok hstep
    exact scalar (exists_of_readText? hread)
  | result => exact stepResult h (.value .none) hstep
  | other => exact stepOther h (.value .none) hstep

/-- A value is complete: another one follows, or the object or array ends. -/
theorem after (h : Around place before) (tree : Tree)
    (hstep : Envelope.step (.next place f) t = .ok s') :
    Spelled s' (before ++ tree.tokens ++ [t]) := by
  cases h with
  | member members pieces =>
    have hparts : Token.mark .openObject :: (Tree.followed (Tree.memberTokens members) ++
        [.text pieces .closed, .mark .colon]) ++ tree.tokens =
        .mark .openObject :: Tree.separated (Tree.memberTokens (members ++ [(pieces, tree)])) := by
      rw [Tree.separated_members, List.cons_append, List.append_assoc]
      rfl
    rw [hparts, List.cons_append]
    cases t with
    | mark m =>
      cases m with
      | comma =>
        cases hstep
        rw [Tree.separated_members_comma]
        exact .name false f _ (by simp)
      | closeObject =>
        cases hstep
        exact .nothing f (.object (members ++ [(pieces, tree)]))
      | _ => cases hstep
    | _ => cases hstep
  | item due items =>
    have hparts : Token.mark .openArray :: Tree.followed (Tree.itemTokens items) ++ tree.tokens =
        .mark .openArray :: Tree.separated (Tree.itemTokens (items ++ [tree])) := by
      rw [Tree.separated_items, List.cons_append]
    rw [hparts, List.cons_append]
    cases t with
    | mark m =>
      cases m with
      | comma =>
        cases due with
        | nil => cases hstep
        | cons slot due =>
          cases hstep
          rw [Tree.separated_items_comma]
          exact .value slot f (.item due _)
      | closeArray =>
        have hdone : Envelope.step (.next (.item due) f) (.mark .closeArray) =
            .ok (.nothing f) := by
          cases due <;> rfl
        rw [hdone] at hstep
        cases hstep
        exact .nothing f (.array (items ++ [tree]))
      | _ => cases due <;> cases hstep
    | _ => cases due <;> cases hstep

/-- One more token. -/
theorem step (h : Spelled s before) (hstep : Envelope.step s t = .ok s') :
    Spelled s' (before ++ [t]) := by
  cases h with
  | line =>
    cases t with
    | mark m =>
      cases m with
      | openObject =>
        cases hstep
        exact .name true .empty [] fun _ => rfl
      | openArray =>
        cases hstep
        exact .firstItem
      | _ => cases hstep
    | _ => cases hstep
  | name isFirst f members hfirst =>
    cases t with
    | text pieces e =>
      have hbegin : beginMember f pieces e = .ok s' := by
        cases isFirst <;> exact hstep
      cases hkeep : Json.keepText pieces e with
      | error fault =>
        rw [beginMember, hkeep] at hbegin
        cases hbegin
      | ok name =>
        cases Json.closed_of_keepText hkeep
        rw [beginMember, hkeep] at hbegin
        simp only [ofFault, bind, Except.bind] at hbegin
        split at hbegin <;> cases hbegin
        exact .colon _ f members pieces
    | mark m =>
      cases isFirst with
      | false => cases m <;> cases hstep
      | true =>
        cases m with
        | closeObject =>
          cases hstep
          cases hfirst rfl
          exact .nothing f (.object [])
        | _ => cases hstep
    | _ => cases isFirst <;> cases hstep
  | colon slot f members pieces =>
    cases t with
    | mark m =>
      cases m with
      | colon =>
        cases hstep
        rw [List.cons_append, List.append_assoc]
        exact .value slot f (.member members pieces)
      | _ => cases hstep
    | _ => cases hstep
  | firstItem =>
    by_cases ht : t = .mark .closeArray
    · subst ht
      cases hstep
      exact .nothing .empty (.array [])
    · have hbegin : Envelope.beginValue .success (.item [.kind, .result, .error]) .empty t =
          .ok s' := by
        rw [← hstep]
        simp only [Envelope.step]
      exact beginValue (.item _ []) hbegin
  | value slot f h => exact beginValue h hstep
  | inResult f h hs =>
    rw [List.append_assoc]
    exact stepResult h hs hstep
  | inOther f h hs =>
    rw [List.append_assoc]
    exact stepOther h hs hstep
  | next f h tree => exact after h tree hstep
  | nothing => cases hstep

/-- What is read to the end is the tokens of a tree. -/
theorem foldlM (h : Spelled s before) (hread : ts.foldlM Envelope.step s = .ok (.nothing f)) :
    ∃ tree : Tree, before ++ ts = tree.tokens := by
  induction ts generalizing s before with
  | nil =>
    cases hread
    cases h with
    | nothing _ tree => exact ⟨tree, List.append_nil _⟩
  | cons t ts ih =>
    rw [List.foldlM_cons] at hread
    obtain ⟨s', hstep, hrest⟩ := exists_of_bind_ok hread
    obtain ⟨tree, htree⟩ := ih (h.step hstep) hrest
    rw [List.append_assoc] at htree
    exact ⟨tree, htree⟩

end Spelled

/-- A line that is read as an envelope writes a tree. -/
theorem exists_tree_of_read {line : Bytes} {e : Envelope} (h : read line = .ok e) :
    ∃ t : Tree, Json.scan line = t.tokens ∧ readTree t = .ok e := by
  have hrun := h
  rw [read, run_eq_foldlM] at hrun
  obtain ⟨s, hread, hfinish⟩ := exists_of_bind_ok hrun
  cases s with
  | nothing f =>
    obtain ⟨t, ht⟩ := Spelled.line.foldlM hread
    rw [List.nil_append] at ht
    refine ⟨t, ht, ?_⟩
    rw [← run_tokens, ← ht]
    exact h
  | _ => cases hfinish

/-- A line is an envelope if its tokens write a tree that is one, and only then. -/
theorem read_eq_ok_iff {line : Bytes} {e : Envelope} :
    read line = .ok e ↔ ∃ t : Tree, Json.scan line = t.tokens ∧ readTree t = .ok e := by
  constructor
  · exact exists_tree_of_read
  · rintro ⟨t, ht, he⟩
    rw [read, ht, run_tokens, he]

end Envelope
end DbClient
