import DbClient.Command.Statement
import DbClient.Proofs.Session.Exchange
import DbClient.Proofs.Text.Natural
import DbClient.Proofs.Text.RoundTrip

/-!
# Values that are read back

Values are written one after another with commas between them, and nothing in them is escaped. As
long as no text holds a single quote, the quotes still tell which commas stand between values, and
each part that they leave is one value. So the list can be read back.
-/

namespace DbClient

namespace Literal

/-! ## Integers as they are written -/

theorem exists_decimal_integer (n : Int) :
    ∃ digits, Text.Decimal digits n.natAbs ∧
      (integer n).write.toList = if n < 0 then '-' :: digits else digits := by
  cases n with
  | ofNat n => exact ⟨n.repr.toList, Text.decimal_repr n, rfl⟩
  | negSucc n =>
    have hwrite : (integer (.negSucc n)).write = "-" ++ (n + 1).repr := rfl
    refine ⟨(n + 1).repr.toList, Text.decimal_repr (n + 1), ?_⟩
    rw [hwrite, String.toList_append, if_pos (Int.negSucc_lt_zero n)]
    rfl

theorem sign_or_digit_of_mem {n : Int} {c : Char} (hc : c ∈ (integer n).write.toList) :
    c = '-' ∨ c.isDigit = true := by
  obtain ⟨digits, hdigits, hwrite⟩ := exists_decimal_integer n
  rw [hwrite] at hc
  split at hc
  · exact (List.mem_cons.1 hc).imp_right (hdigits.isDigit c)
  · exact .inr (hdigits.isDigit c hc)

/-! ## Values one by one -/

/-- Whether a value is no float and no text with a single quote in it. -/
def IsPlain : Literal → Prop
  | float _ => False
  | text s => '\'' ∉ s.toList
  | _ => True

instance : DecidablePred IsPlain
  | null | bool _ | integer _ => .isTrue trivial
  | float _ => .isFalse id
  | text s => inferInstanceAs (Decidable ('\'' ∉ s.toList))

/-- The value that a text writes: what stands between quotes, a word of its own, or an integer. -/
def read? : List Char → Option Literal
  | '\'' :: cs =>
    if cs.getLast? = some '\'' then some (text (String.ofList cs.dropLast)) else none
  | '-' :: cs => (Text.decimal? cs).map fun n : Nat => integer (-n)
  | cs =>
    if cs = "NULL".toList then some null
    else if cs = "true".toList then some (bool true)
    else if cs = "false".toList then some (bool false)
    else (Text.decimal? cs).map fun n : Nat => integer n

theorem toList_write_text (s : String) : (text s).write.toList = '\'' :: (s.toList ++ ['\'']) := by
  have hwrite : (text s).write = "'" ++ s ++ "'" := rfl
  simp [hwrite]

theorem read?_of_decimal {cs : List Char} {n : Nat} (h : Text.Decimal cs n) :
    read? cs = some (integer n) := by
  have hword : ∀ {c : Char} {word : List Char}, c ∈ word → c.isDigit = false → cs ≠ word := by
    rintro c _ hmem hdigit rfl
    rw [h.isDigit c hmem] at hdigit
    cases hdigit
  unfold read?
  split
  · exact absurd rfl (hword List.mem_cons_self rfl)
  · exact absurd rfl (hword List.mem_cons_self rfl)
  · rw [if_neg (hword (c := 'N') (by decide) rfl), if_neg (hword (c := 't') (by decide) rfl),
      if_neg (hword (c := 'f') (by decide) rfl), Text.decimal?_of_decimal h]
    rfl

/-- A value that is written can be read. -/
theorem read?_write {v : Literal} (h : v.IsPlain) : read? v.write.toList = some v := by
  cases v with
  | float x => exact h.elim
  | null => decide
  | bool b => cases b <;> decide
  | integer n =>
    obtain ⟨digits, hdigits, hwrite⟩ := exists_decimal_integer n
    rw [hwrite]
    split
    · have : -(n.natAbs : Int) = n := by omega
      rw [read?, Text.decimal?_of_decimal hdigits, Option.map_some, this]
    · have : (n.natAbs : Int) = n := by omega
      rw [read?_of_decimal hdigits, this]
  | text s => simp [toList_write_text, read?]

/-! ## Values between commas -/

/-- The parts of a list, cut at the commas outside quotes; `quoted` tells whether it starts inside
of them. -/
def cutAtCommas (quoted : Bool) : List Char → List (List Char)
  | [] => [[]]
  | c :: cs =>
    if c = ',' ∧ quoted = false then [] :: cutAtCommas false cs
    else (cutAtCommas (quoted ^^ c = '\'') cs).modifyHead (c :: ·)

theorem cutAtCommas_comma (cs : List Char) :
    cutAtCommas false (',' :: cs) = [] :: cutAtCommas false cs :=
  if_pos ⟨rfl, rfl⟩

theorem cutAtCommas_space (cs : List Char) :
    cutAtCommas false (' ' :: cs) = (cutAtCommas false cs).modifyHead (' ' :: ·) :=
  if_neg (by decide)

theorem cutAtCommas_quote (quoted : Bool) (cs : List Char) :
    cutAtCommas quoted ('\'' :: cs) = (cutAtCommas (!quoted) cs).modifyHead ('\'' :: ·) := by
  rw [cutAtCommas, if_neg (by simp)]
  simp

/-- Nothing is cut where there is no comma outside quotes. -/
theorem cutAtCommas_append {quoted : Bool} {cs : List Char}
    (h : ∀ c ∈ cs, c ≠ '\'' ∧ (quoted = false → c ≠ ',')) (rest : List Char) :
    cutAtCommas quoted (cs ++ rest) = (cutAtCommas quoted rest).modifyHead (cs ++ ·) := by
  induction cs with
  | nil => exact (congrFun List.modifyHead_id _).symm
  | cons c cs ih =>
    obtain ⟨⟨hquote, hcomma⟩, hcs⟩ := List.forall_mem_cons.1 h
    have hstays : (quoted ^^ decide (c = '\'')) = quoted := by simp [hquote]
    rw [List.cons_append, cutAtCommas, if_neg fun hcut => hcomma hcut.2 hcut.1, hstays, ih hcs,
      List.modifyHead_modifyHead]
    rfl

theorem cutAtCommas_write {v : Literal} (h : v.IsPlain) (rest : List Char) :
    cutAtCommas false (v.write.toList ++ rest) =
      (cutAtCommas false rest).modifyHead (v.write.toList ++ ·) := by
  cases v with
  | float x => exact h.elim
  | null => exact cutAtCommas_append (by simp [write]) rest
  | bool b => cases b <;> exact cutAtCommas_append (by simp [write]) rest
  | integer n =>
    refine cutAtCommas_append (fun c hc => ?_) rest
    have hsign := sign_or_digit_of_mem hc
    constructor
    · rintro rfl
      simp at hsign
    · rintro - rfl
      simp at hsign
  | text s =>
    -- no quote stands between the two, so what is between them is inside, and the rest is outside
    have hinside : ∀ c ∈ s.toList, c ≠ '\'' ∧ (true = false → c ≠ ',') := by
      refine fun c hc => ⟨?_, nofun⟩
      rintro rfl
      exact h hc
    calc cutAtCommas false ((text s).write.toList ++ rest)
        = cutAtCommas false ('\'' :: (s.toList ++ '\'' :: rest)) := by simp [toList_write_text]
      _ = (((cutAtCommas false rest).modifyHead ('\'' :: ·)).modifyHead (s.toList ++ ·)).modifyHead
            ('\'' :: ·) := by
          rw [cutAtCommas_quote, Bool.not_false, cutAtCommas_append hinside, cutAtCommas_quote,
            Bool.not_true]
      _ = (cutAtCommas false rest).modifyHead ((text s).write.toList ++ ·) := by
          simp [List.modifyHead_modifyHead, toList_write_text, Function.comp_def]

/-- Values as they are written one after another. -/
def row (values : List Literal) : List Char :=
  (", ".intercalate (values.map write)).toList

theorem row_singleton (v : Literal) : row [v] = v.write.toList := by
  rw [row, List.map_singleton, String.intercalate_singleton]

theorem row_cons_cons (v w : Literal) (values : List Literal) :
    row (v :: w :: values) = v.write.toList ++ ',' :: ' ' :: row (w :: values) := by
  simp only [row, List.map_cons, String.intercalate_cons_cons, String.toList_append,
    List.append_assoc]
  rfl

/-- Each part holds one value, if every part starts with a space. -/
theorem cutAtCommas_row {values : List Literal} (hne : values ≠ [])
    (h : ∀ v ∈ values, v.IsPlain) :
    cutAtCommas false (' ' :: row values) = values.map (' ' :: ·.write.toList) := by
  induction values with
  | nil => exact absurd rfl hne
  | cons v values ih =>
    obtain ⟨hv, hvalues⟩ := List.forall_mem_cons.1 h
    cases values with
    | nil =>
      have hlast := cutAtCommas_write hv []
      rw [List.append_nil] at hlast
      rw [row_singleton, cutAtCommas_space, hlast]
      simp [cutAtCommas]
    | cons w values =>
      rw [row_cons_cons, cutAtCommas_space, cutAtCommas_write hv, cutAtCommas_comma,
        ih (List.cons_ne_nil w values) hvalues]
      simp

theorem write_ne_nil {v : Literal} (h : v.IsPlain) : v.write.toList ≠ [] := by
  intro hnil
  have hread := read?_write h
  rw [hnil] at hread
  cases hread

theorem row_ne_nil {v : Literal} (h : v.IsPlain) (values : List Literal) :
    row (v :: values) ≠ [] := by
  cases values with
  | nil =>
    rw [row_singleton]
    exact write_ne_nil h
  | cons w values =>
    rw [row_cons_cons]
    exact List.append_ne_nil_of_left_ne_nil (write_ne_nil h) _

/-- The values that are written in a row. -/
def readRow? (cs : List Char) : Option (List Literal) :=
  if cs = [] then some []
  else (cutAtCommas false (' ' :: cs)).mapM fun part => read? part.tail

theorem mapM_read?_write {values : List Literal} (h : ∀ v ∈ values, v.IsPlain) :
    (values.map (' ' :: ·.write.toList)).mapM (fun part => read? part.tail) = some values := by
  induction values with
  | nil => rfl
  | cons v values ih =>
    obtain ⟨hv, hvalues⟩ := List.forall_mem_cons.1 h
    rw [List.map_cons, List.mapM_cons, ih hvalues, List.tail_cons, read?_write hv]
    rfl

/-- A row of values can be read, whatever the texts in it are. -/
theorem readRow?_row {values : List Literal} (h : ∀ v ∈ values, v.IsPlain) :
    readRow? (row values) = some values := by
  cases values with
  | nil => rfl
  | cons v values =>
    rw [readRow?, if_neg (row_ne_nil (h v List.mem_cons_self) values),
      cutAtCommas_row (List.cons_ne_nil v values) h, mapM_read?_write h]

end Literal

/-! ## Values of an insertion -/

namespace Statement

/-- What an insertion says before its values. -/
def insertOpening (database table : String) (columns : List String) : String :=
  s!"INSERT INTO {database}.{table} (" ++ ", ".intercalate columns ++ ") VALUES ("

/-- The values of an insertion into these columns, read from its frame. -/
def readInserted? (database table : String) (columns : List String) (frame : Bytes) :
    Option (List Literal) :=
  (Utf8.decode? frame.dropLast).bind fun text =>
    Literal.readRow?
      (text.toList.drop (insertOpening database table columns).toList.length).dropLast

variable {database table : String} {columns : List String} {values : List Literal}

theorem toList_text_insert :
    (insert database table columns values).text.toList =
      (insertOpening database table columns).toList ++ (Literal.row values ++ [')']) := by
  have htext : (insert database table columns values).text =
      insertOpening database table columns ++
        ", ".intercalate (values.map Literal.write) ++ ")" := rfl
  rw [htext, String.toList_append, String.toList_append, List.append_assoc]
  rfl

theorem readInserted?_frameOf (h : ∀ v ∈ values, v.IsPlain) :
    readInserted? database table columns (frameOf (insert database table columns values).text) =
      some values := by
  rw [readInserted?, frameOf, List.dropLast_concat, Utf8.decode?_encode, Option.bind_some,
    toList_text_insert, List.drop_left, List.dropLast_concat]
  exact Literal.readRow?_row h

end Statement
end DbClient
