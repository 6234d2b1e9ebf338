import DbClient.Proofs.Json.Written

/-!
# Lines of one object

An object on a line, member by member, with the space between its tokens. Every line whose
tokens write an object is laid out in this way, and the tokens of such a line do not depend on
the space.
-/

namespace DbClient.Json

/-- Space between two tokens. -/
structure Gap where
  bytes : Bytes
  blank : ∀ b ∈ bytes, isSpace b = true

def Gap.none : Gap :=
  ⟨[], by simp⟩

/-- A member of an object on a line: its name and its value, what they write, and the space
around them. -/
structure Member where
  name : Bytes
  pieces : List Piece
  scan_name : scan name = [.text pieces .closed]
  value : Written
  beforeName : Gap
  afterName : Gap
  beforeValue : Gap
  afterValue : Gap

namespace Member

/-- The member on its line. -/
def write (m : Member) : Bytes :=
  writeMember (m.beforeName.bytes ++ (m.name ++ m.afterName.bytes))
    (m.beforeValue.bytes ++ (m.value.bytes ++ m.afterValue.bytes))

/-- What the member writes, without the space. -/
def branch (m : Member) : List Piece × Tree :=
  (m.pieces, m.value.tree)

theorem scan_padded {a : Bytes} (before after : Gap) (h : AllClosed (scan a)) :
    scan (before.bytes ++ (a ++ after.bytes)) = scan a := by
  have hafter : Scan.Separated after.bytes := by
    intro x hx
    simp [Scan.separates, after.blank x (List.mem_of_mem_head? hx)]
  rw [scan_space before.blank, scan_append h hafter, scan_eq_nil_iff.2 after.blank,
    List.append_nil]

theorem scan_write (m : Member) : scan m.write = Tree.memberToken m.branch := by
  have hname : AllClosed (scan m.name) := by
    rw [m.scan_name]
    exact (Tree.text m.pieces).allClosed
  have hvalue : AllClosed (scan m.value.bytes) := by
    rw [m.value.scan_bytes]
    exact m.value.tree.allClosed
  exact scan_writeMember ((scan_padded _ _ hname).trans m.scan_name)
    ((scan_padded _ _ hvalue).trans m.value.scan_bytes)

/-- A member without space, as it is written. -/
def written (e : Escaping) (name : String) (v : Written) : Member where
  name := e.text name
  pieces := e.pieces name
  scan_name := e.scan_text name
  value := v
  beforeName := .none
  afterName := .none
  beforeValue := .none
  afterValue := .none

end Member

/-- An object on a line. -/
structure ObjectLine where
  before : Gap
  inside : Gap
  members : List Member
  after : Gap

namespace ObjectLine

/-- The line. -/
def write (o : ObjectLine) : Bytes :=
  o.before.bytes ++ (writeObject o.inside.bytes (o.members.map Member.write) ++ o.after.bytes)

/-- What the members write. -/
def branches (o : ObjectLine) : List (List Piece × Tree) :=
  o.members.map Member.branch

theorem scan_write (o : ObjectLine) : scan o.write = (Tree.object o.branches).tokens := by
  have hobject : scan (writeObject o.inside.bytes (o.members.map Member.write)) =
      (Tree.object o.branches).tokens :=
    scan_writeObject o.inside.blank fun m _ => m.scan_write
  have hclosed : AllClosed (scan (writeObject o.inside.bytes (o.members.map Member.write))) := by
    rw [hobject]
    exact (Tree.object o.branches).allClosed
  exact (Member.scan_padded o.before o.after hclosed).trans hobject

/-! ## Laying out a line -/

theorem byte_of_mark : ∀ x, (mark? x = some .openObject → x = 0x7B) ∧
    (mark? x = some .closeObject → x = 0x7D) ∧ (mark? x = some .colon → x = 0x3A) ∧
    (mark? x = some .comma → x = 0x2C) := by
  decide +kernel

/-- A mark that comes first, with the space around it. -/
theorem exists_mark {line : Bytes} {m : Mark} {us : List Token} (h : scan line = .mark m :: us) :
    ∃ (before : Gap) (x : UInt8) (rest : Bytes), line = before.bytes ++ x :: rest ∧
      mark? x = some m ∧ scan rest = us := by
  have hclosed : AllClosed [.mark m] := .singleton rfl
  have hfirst : scan line = [.mark m] ++ us := h
  obtain ⟨a, b, rfl, ha, hb⟩ := exists_of_scan_eq_append hfirst (by simp) hclosed
  obtain ⟨before, x, after, rfl, hx, hbefore, hafter⟩ := exists_of_scan_eq_mark ha
  refine ⟨⟨before, hbefore⟩, x, after ++ b, ?_, hx, ?_⟩
  · rw [List.append_assoc, List.cons_append]
  · rw [scan_space hafter, hb]

/-- A member that comes first, with the mark behind it. -/
theorem exists_member {line : Bytes} {branch : List Piece × Tree} {m : Mark} {us : List Token}
    (h : scan line = Tree.memberToken branch ++ .mark m :: us) :
    ∃ (member : Member) (x : UInt8) (rest : Bytes), line = member.write ++ x :: rest ∧
      member.branch = branch ∧ mark? x = some m ∧ scan rest = us := by
  obtain ⟨pieces, tree⟩ := branch
  have hfirst : scan line = (Tree.text pieces).tokens ++ (.mark .colon :: (tree.tokens ++
      .mark m :: us)) := h
  obtain ⟨name, line, rfl, hname, h⟩ :=
    exists_of_scan_eq_append hfirst (by simp [Tree.tokens]) (Tree.text pieces).allClosed
  obtain ⟨afterName, colon, line, rfl, hcolon, h⟩ := exists_mark h
  have htree : tree.tokens ≠ [] := by
    obtain ⟨first, rest, htokens, -⟩ := tree.tokens_eq_cons
    simp [htokens]
  obtain ⟨value, line, rfl, hvalue, h⟩ := exists_of_scan_eq_append h htree tree.allClosed
  obtain ⟨afterValue, x, rest, rfl, hx, hrest⟩ := exists_mark h
  refine ⟨⟨name, pieces, hname, ⟨value, tree, hvalue⟩, .none, afterName, .none, afterValue⟩, x,
    rest, ?_, rfl, hx, hrest⟩
  cases (byte_of_mark colon).2.2.1 hcolon
  simp [Member.write, writeMember, Gap.none]

/-- So are all members, up to the end of the object. -/
theorem exists_members {line : Bytes} {branch : List Piece × Tree}
    {branches : List (List Piece × Tree)}
    (h : scan line = Tree.separated ((branch :: branches).map Tree.memberToken) ++
      [.mark .closeObject]) :
    ∃ (first : Member) (members : List Member) (after : Gap),
      line = joined ((first :: members).map Member.write) ++ 0x7D :: after.bytes ∧
      (first :: members).map Member.branch = branch :: branches := by
  induction branches generalizing line branch with
  | nil =>
    rw [List.map_singleton, Tree.separated_singleton] at h
    obtain ⟨member, x, rest, rfl, rfl, hx, hrest⟩ := exists_member h
    refine ⟨member, [], ⟨rest, scan_eq_nil_iff.1 hrest⟩, ?_, rfl⟩
    cases (byte_of_mark x).2.1 hx
    rw [List.map_singleton, joined, List.intercalate_singleton]
  | cons second branches ih =>
    rw [List.map_cons, List.map_cons, Tree.separated_cons_cons, List.append_assoc,
      List.cons_append, ← List.map_cons] at h
    obtain ⟨member, x, rest, rfl, rfl, hx, hrest⟩ := exists_member h
    obtain ⟨next, members, after, rfl, hbranches⟩ := ih hrest
    refine ⟨member, next :: members, after, ?_, by rw [List.map_cons, hbranches]⟩
    cases (byte_of_mark x).2.2.2 hx
    simp only [List.map_cons, joined_cons_cons, List.append_assoc, List.cons_append]

/-- Every line whose tokens write an object can be laid out. -/
theorem exists_write_eq {line : Bytes} {branches : List (List Piece × Tree)}
    (h : scan line = (Tree.object branches).tokens) :
    ∃ o : ObjectLine, o.write = line ∧ o.branches = branches := by
  rw [Tree.tokens, Tree.memberTokens_eq_map] at h
  obtain ⟨before, x, rest, rfl, hx, hrest⟩ := exists_mark h
  cases (byte_of_mark x).1 hx
  cases branches with
  | nil =>
    obtain ⟨inside, y, after, rfl, hy, hafter⟩ := exists_mark hrest
    refine ⟨⟨before, inside, [], ⟨after, scan_eq_nil_iff.1 hafter⟩⟩, ?_, rfl⟩
    cases (byte_of_mark y).2.1 hy
    simp [write, writeObject, enclosed, joined]
  | cons branch branches =>
    obtain ⟨first, members, after, rfl, hbranches⟩ := exists_members hrest
    refine ⟨⟨before, .none, first :: members, after⟩, ?_, hbranches⟩
    simp [write, writeObject, enclosed, Gap.none]

end ObjectLine
end DbClient.Json
