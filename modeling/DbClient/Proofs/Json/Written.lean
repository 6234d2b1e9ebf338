import DbClient.Proofs.Json.Escaped
import DbClient.Proofs.Json.Spelled

/-!
# Written values

How a writer puts values on a line without space, and what the line is read as: an array or
object has the tokens of its parts with commas between them, and is kept as what was written.
-/

namespace DbClient.Json

/-! ## Containers -/

/-- Parts of a line with commas between them. -/
def joined (parts : List Bytes) : Bytes :=
  [(0x2C : UInt8)].intercalate parts

/-- An array, as it is written. -/
def writeArray (items : List Bytes) : Bytes :=
  enclosed 0x5B 0x5D (joined items)

/-- A member of an object, as it is written. -/
def writeMember (name value : Bytes) : Bytes :=
  name ++ 0x3A :: value

/-- An object, as it is written, with what stands in front of its first member. -/
def writeObject (inside : Bytes) (members : List Bytes) : Bytes :=
  enclosed 0x7B 0x7D (inside ++ joined members)

theorem joined_cons_cons (first second : Bytes) (rest : List Bytes) :
    joined (first :: second :: rest) = first ++ 0x2C :: joined (second :: rest) := by
  rw [joined, List.intercalate_cons_cons, List.append_assoc]
  rfl

theorem allClosed_separated {parts : List (List Token)} (h : ∀ ts ∈ parts, AllClosed ts) :
    AllClosed (Tree.separated parts) := by
  induction parts with
  | nil => exact .nil
  | cons first parts ih =>
    obtain ⟨hfirst, hrest⟩ := List.forall_mem_cons.1 h
    cases parts with
    | nil => rwa [Tree.separated_singleton]
    | cons second parts =>
      rw [Tree.separated_cons_cons]
      exact hfirst.append ((ih hrest).cons rfl)

theorem allClosed_bracketed {first last : Mark} {ts : List Token} (h : AllClosed ts) :
    AllClosed (.mark first :: (ts ++ [.mark last])) :=
  (h.append (.singleton rfl)).cons rfl

theorem Tree.allClosed_member {m : List Piece × Tree} (h : AllClosed m.2.tokens) :
    AllClosed (memberToken m) :=
  (h.cons rfl).cons rfl

/-- The tokens of a tree ended well. -/
theorem Tree.allClosed (t : Tree) : AllClosed t.tokens := by
  induction t using Tree.induction with
  | word | number | text => exact .singleton rfl
  | array items ih =>
    rw [tokens, itemTokens_eq_map]
    exact allClosed_bracketed (allClosed_separated (List.forall_mem_map.2 ih))
  | object members ih =>
    rw [tokens, memberTokens_eq_map]
    exact allClosed_bracketed
      (allClosed_separated (List.forall_mem_map.2 fun m hm => allClosed_member (ih m hm)))

theorem scan_enclosed {first last : UInt8} {m m' : Mark} {body : Bytes}
    (hfirst : mark? first = some m) (hlast : mark? last = some m')
    (hbody : AllClosed (scan body)) :
    scan (enclosed first last body) = .mark m :: (scan body ++ [.mark m']) := by
  have hseparates : Scan.separates last = true := by simp [Scan.separates, hlast]
  rw [enclosed, scan_cons_mark hfirst, scan_append hbody (Scan.separated_cons hseparates),
    scan_cons_mark hlast, scan_nil]

section Parts

variable {ι : Type} {xs : List ι} {write : ι → Bytes}

/-- Parts with commas between them have the tokens of the parts. -/
theorem scan_joined {tokens : ι → List Token} (h : ∀ x ∈ xs, scan (write x) = tokens x)
    (hclosed : ∀ x ∈ xs, AllClosed (tokens x)) :
    scan (joined (xs.map write)) = Tree.separated (xs.map tokens) := by
  induction xs with
  | nil => rfl
  | cons first xs ih =>
    obtain ⟨hfirst, hrest⟩ := List.forall_mem_cons.1 h
    obtain ⟨hfirstClosed, hrestClosed⟩ := List.forall_mem_cons.1 hclosed
    replace ih := ih hrest hrestClosed
    cases xs with
    | nil =>
      rw [List.map_singleton, List.map_singleton, Tree.separated_singleton, joined,
        List.intercalate_singleton, hfirst]
    | cons second xs =>
      have hpart : AllClosed (scan (write first)) := hfirst ▸ hfirstClosed
      simp only [List.map_cons] at ih ⊢
      rw [joined_cons_cons, scan_append hpart (Scan.separated_cons rfl), scan_cons_mark rfl, ih,
        hfirst, Tree.separated_cons_cons]

/-- An array has the tokens of its items. -/
theorem scan_writeArray {tree : ι → Tree} (h : ∀ x ∈ xs, scan (write x) = (tree x).tokens) :
    scan (writeArray (xs.map write)) = (Tree.array (xs.map tree)).tokens := by
  have hjoined := scan_joined h fun x _ => (tree x).allClosed
  have hclosed : AllClosed (scan (joined (xs.map write))) := by
    rw [hjoined]
    exact allClosed_separated (List.forall_mem_map.2 fun x _ => (tree x).allClosed)
  rw [writeArray, scan_enclosed rfl rfl hclosed, hjoined, Tree.tokens, Tree.itemTokens_eq_map,
    List.map_map]
  rfl

theorem scan_writeMember {name value : Bytes} {pieces : List Piece} {t : Tree}
    (hname : scan name = [.text pieces .closed]) (hvalue : scan value = t.tokens) :
    scan (writeMember name value) = Tree.memberToken (pieces, t) := by
  have hclosed : AllClosed (scan name) := by
    rw [hname]
    exact (Tree.text pieces).allClosed
  rw [writeMember, scan_append hclosed (Scan.separated_cons rfl), scan_cons_mark rfl, hname,
    hvalue]
  rfl

/-- An object has the tokens of its members, wherever there is space in front of the first. -/
theorem scan_writeObject {inside : Bytes} {tree : ι → List Piece × Tree}
    (hinside : ∀ x ∈ inside, isSpace x = true)
    (h : ∀ x ∈ xs, scan (write x) = Tree.memberToken (tree x)) :
    scan (writeObject inside (xs.map write)) = (Tree.object (xs.map tree)).tokens := by
  have hjoined : scan (inside ++ joined (xs.map write)) =
      Tree.separated (xs.map (Tree.memberToken ∘ tree)) := by
    rw [scan_space hinside]
    exact scan_joined h fun x _ => Tree.allClosed_member (tree x).2.allClosed
  have hclosed : AllClosed (scan (inside ++ joined (xs.map write))) := by
    rw [hjoined]
    exact allClosed_separated
      (List.forall_mem_map.2 fun x _ => Tree.allClosed_member (tree x).2.allClosed)
  rw [writeObject, scan_enclosed rfl rfl hclosed, hjoined, Tree.tokens,
    Tree.memberTokens_eq_map, List.map_map]

end Parts

/-! ## Values -/

/-- A value with the bytes that write it. -/
structure Written where
  bytes : Bytes
  tree : Tree
  scan_bytes : scan bytes = tree.tokens

/-- A value without parts, with the choices of its writer. -/
inductive Scalar where
  | null
  | truth (b : Bool)
  | integer (n : Int)
  | text (e : Escaping) (s : String)

namespace Written

def scalar : Scalar → Written
  | .null => ⟨Utf8.encode "null", .word .null, by decide +kernel⟩
  | .truth true => ⟨Utf8.encode "true", .word (.truth true), by decide +kernel⟩
  | .truth false => ⟨Utf8.encode "false", .word (.truth false), by decide +kernel⟩
  | .integer n => ⟨writeInteger n, .number (.ofInt n), scan_writeInteger n⟩
  | .text e s => ⟨e.text s, .text (e.pieces s), e.scan_text s⟩

def array (items : List Written) : Written where
  bytes := writeArray (items.map bytes)
  tree := .array (items.map tree)
  scan_bytes := scan_writeArray fun item _ => item.scan_bytes

def object (e : Escaping) (members : List (String × Written)) : Written where
  bytes := writeObject [] (members.map fun m => writeMember (e.text m.1) m.2.bytes)
  tree := .object (members.map fun m => (e.pieces m.1, m.2.tree))
  scan_bytes :=
    scan_writeObject nofun fun m _ => scan_writeMember (e.scan_text m.1) m.2.scan_bytes

/-! ## What is kept -/

variable {ι : Type} {xs : List ι} {room depth : Nat}

/-- Whether the value is kept as `v` inside so many containers. -/
def KeptAs (w : Written) (room depth : Nat) (v : Json) : Prop :=
  (Reading.kept room).eval depth w.tree = .ok v

theorem keptAs_text (e : Escaping) (s : String) :
    (scalar (.text e s)).KeptAs room depth (.string s) := by
  show (keepText (e.pieces s) .closed).map Json.string = _
  rw [e.keepText_pieces]
  rfl

theorem keptAs_integer {n : Int} (h : (Numeral.ofInt n).isInteger = true) :
    (scalar (.integer n)).KeptAs room depth (.integer n) :=
  keepNumber_ofInt h

theorem keptAs_array {write : ι → Written} {value : ι → Json} (hdepth : depth < room)
    (h : ∀ x ∈ xs, (write x).KeptAs room (depth + 1) (value x)) :
    (array (xs.map write)).KeptAs room depth (.array (xs.map value)) := by
  have hitems : (Reading.kept room).evalItems (depth + 1) ((xs.map write).map tree) =
      .ok (xs.map value) := by
    induction xs with
    | nil => rfl
    | cons x xs ih =>
      obtain ⟨hx, hxs⟩ := List.forall_mem_cons.1 h
      simp only [List.map_cons, Reading.evalItems]
      rw [hx, ih hxs]
      rfl
  have hfits : (Reading.kept room).fits depth = true := decide_eq_true hdepth
  rw [KeptAs, array, Reading.eval, if_pos hfits, hitems]
  rfl

theorem keptAs_object (e : Escaping) {name : ι → String} {write : ι → Written} {value : ι → Json}
    (hdepth : depth < room) (h : ∀ x ∈ xs, (write x).KeptAs room (depth + 1) (value x)) :
    (object e (xs.map fun x => (name x, write x))).KeptAs room depth
      (.object (NameMap.ofNewest (xs.map fun x => (name x, value x)).reverse)) := by
  have hmembers : (Reading.kept room).evalMembers (depth + 1)
      ((xs.map fun x => (name x, write x)).map fun m => (e.pieces m.1, m.2.tree)) =
        .ok (xs.map fun x => (name x, value x)) := by
    induction xs with
    | nil => rfl
    | cons x xs ih =>
      obtain ⟨hx, hxs⟩ := List.forall_mem_cons.1 h
      have hname : (Reading.kept room).name (e.pieces (name x)) .closed = .ok (name x) :=
        e.keepText_pieces (name x)
      simp only [List.map_cons, Reading.evalMembers]
      rw [hname, hx, ih hxs]
      rfl
  have hfits : (Reading.kept room).fits depth = true := decide_eq_true hdepth
  rw [KeptAs, object, Reading.eval, if_pos hfits, hmembers]
  rfl

/-! ## Control characters -/

theorem isPlain_joined {parts : List Bytes} (h : ∀ part ∈ parts, IsPlain part) :
    IsPlain (joined parts) := by
  induction parts with
  | nil => exact nofun
  | cons first parts ih =>
    obtain ⟨hfirst, hrest⟩ := List.forall_mem_cons.1 h
    cases parts with
    | nil => rwa [joined, List.intercalate_singleton]
    | cons second parts =>
      rw [joined_cons_cons]
      exact hfirst.append (List.forall_mem_cons.2 ⟨by decide, ih hrest⟩)

theorem isPlain_scalar (v : Scalar) : IsPlain (scalar v).bytes := by
  cases v with
  | null =>
    show ∀ b ∈ _, _
    decide +kernel
  | truth b =>
    cases b <;>
    · show ∀ b ∈ _, _
      decide +kernel
  | integer n => exact isPlain_writeInteger n
  | text e s => exact e.isPlain_text s

theorem isPlain_array {items : List Written} (h : ∀ item ∈ items, IsPlain item.bytes) :
    IsPlain (array items).bytes :=
  (isPlain_joined (List.forall_mem_map.2 h)).enclosed (by decide) (by decide)

theorem isPlain_object (e : Escaping) {members : List (String × Written)}
    (h : ∀ m ∈ members, IsPlain m.2.bytes) : IsPlain (object e members).bytes := by
  have hmember : ∀ m ∈ members, IsPlain (writeMember (e.text m.1) m.2.bytes) := fun m hm =>
    (e.isPlain_text m.1).append (List.forall_mem_cons.2 ⟨by decide, h m hm⟩)
  exact (isPlain_joined (List.forall_mem_map.2 hmember)).enclosed (by decide) (by decide)

end Written
end DbClient.Json
