import DbClient.Frame
import DbClient.Proofs.Json.Written
import DbClient.Proofs.Reply.Faults
import DbClient.Proofs.Reply.Fields
import DbClient.Proofs.Reply.Trees

/-!
# Query replies

The line on which a server reports the rows of a query, as compact JSON, and what it is read
as: the columns, the rows and the counter that were written, whatever texts they are.
-/

namespace DbClient

open Json (Written Escaping Tree)

variable {columns : List String} {rows : List (List String)} {n : UInt64}

/-! ## The line -/

/-- Texts in an array. -/
def writtenTexts (e : Escaping) (texts : List String) : Written :=
  .array (texts.map fun s => .scalar (.text e s))

/-- The result of a query. -/
def writtenResult (e : Escaping) (columns : List String) (rows : List (List String))
    (n : UInt64) : Written :=
  .object e [("columns", writtenTexts e columns), ("data", .array (rows.map (writtenTexts e))),
    ("records_read", .scalar (.integer n.toNat))]

/-- The reply to a query. -/
def writtenReply (e : Escaping) (columns : List String) (rows : List (List String))
    (n : UInt64) : Written :=
  .object e [("success", .scalar (.truth true)), ("type", .scalar (.text e "query")),
    ("result", writtenResult e columns rows n)]

/-- The line of a reply to a query. -/
def queryLine (e : Escaping) (columns : List String) (rows : List (List String))
    (n : UInt64) : Bytes :=
  (writtenReply e columns rows n).bytes

/-- It has no line break. -/
theorem delimiter_notMem_queryLine (e : Escaping) (columns : List String)
    (rows : List (List String)) (n : UInt64) : delimiter ∉ queryLine e columns rows n := by
  have htexts : ∀ texts, Json.IsPlain (writtenTexts e texts).bytes := fun texts =>
    Written.isPlain_array (List.forall_mem_map.2 fun s _ => Written.isPlain_scalar _)
  have hrows : Json.IsPlain (Written.array (rows.map (writtenTexts e))).bytes :=
    Written.isPlain_array (List.forall_mem_map.2 fun row _ => htexts row)
  have hresult : Json.IsPlain (writtenResult e columns rows n).bytes := by
    refine Written.isPlain_object e ?_
    simp only [List.forall_mem_cons]
    exact ⟨htexts columns, hrows, Written.isPlain_scalar _, nofun⟩
  have hline : Json.IsPlain (queryLine e columns rows n) := by
    refine Written.isPlain_object e ?_
    simp only [List.forall_mem_cons]
    exact ⟨Written.isPlain_scalar _, Written.isPlain_scalar _, hresult, nofun⟩
  have hcontrol : ¬(0x20 : UInt8) ≤ delimiter := by decide
  exact fun hmem => hcontrol (hline delimiter hmem)

/-! ## The value -/

/-- Texts as a value. -/
def textsValue (texts : List String) : Json :=
  .array (texts.map .string)

/-- The result of a query as a value. -/
def resultValue (columns : List String) (rows : List (List String)) (n : UInt64) : Json :=
  .object [("columns", textsValue columns), ("data", .array (rows.map textsValue)),
    ("records_read", .integer n.toNat)]

theorem keptAs_texts (e : Escaping) {room depth : Nat} (h : depth < room) (texts : List String) :
    (writtenTexts e texts).KeptAs room depth (textsValue texts) :=
  Written.keptAs_array h fun s _ => Written.keptAs_text e s

theorem isInteger_ofInt (n : UInt64) : (Json.Numeral.ofInt n.toNat).isInteger = true := by
  have hn : n.toNat ≤ maxUnsigned := Nat.le_of_lt_succ n.toNat_lt
  have hsign : ¬(n.toNat : Int) < 0 := by omega
  simp [Json.Numeral.isInteger, Json.Numeral.ofInt, Json.Numeral.start, hsign, hn]

/-- The members are in the order of their names already. -/
theorem ofNewest_members (a b c : Json) :
    NameMap.ofNewest [("records_read", c), ("data", b), ("columns", a)] =
      [("columns", a), ("data", b), ("records_read", c)] := by
  have hdata : ¬"data" < "columns" := by decide
  have hcounter : ¬"records_read" < "columns" := by decide
  have hcounter' : ¬"records_read" < "data" := by decide
  simp [NameMap.ofNewest, NameMap.insert, hdata, hcounter, hcounter']

theorem keptAs_result (e : Escaping) (columns : List String) (rows : List (List String))
    (n : UInt64) :
    (writtenResult e columns rows n).KeptAs (Json.maxDepth - 1) 0 (resultValue columns rows n) := by
  let members : List (String × Written × Json) :=
    [("columns", writtenTexts e columns, textsValue columns),
      ("data", .array (rows.map (writtenTexts e)), .array (rows.map textsValue)),
      ("records_read", .scalar (.integer n.toNat), .integer n.toNat)]
  have hmembers : ∀ m ∈ members, m.2.1.KeptAs (Json.maxDepth - 1) 1 m.2.2 := by
    simp only [members, List.forall_mem_cons]
    refine ⟨keptAs_texts e (by decide) columns, ?_, ?_, nofun⟩
    · exact Written.keptAs_array (by decide) fun row _ => keptAs_texts e (by decide) row
    · exact Written.keptAs_integer (isInteger_ofInt n)
  have hobject : (Written.object e (members.map fun m => (m.1, m.2.1))).KeptAs
      (Json.maxDepth - 1) 0
      (.object (NameMap.ofNewest (members.map fun m => (m.1, m.2.2)).reverse)) :=
    Written.keptAs_object e (by decide) hmembers
  rw [resultValue, ← ofNewest_members]
  exact hobject

/-! ## What is read -/

theorem firstRagged?_eq_none {width index : Nat} {rows : List (List String)}
    (h : ∀ row ∈ rows, row.length = width) : firstRagged? width index rows = none := by
  induction rows generalizing index with
  | nil => rfl
  | cons row rows ih =>
    obtain ⟨hrow, hrows⟩ := List.forall_mem_cons.1 h
    rw [firstRagged?, if_pos hrow, ih hrows]

/-- A payload whose rows have one cell per column is the result of the query. -/
theorem QueryPayload.toResult_of_rectangular {p : QueryPayload}
    (h : ∀ row ∈ p.data.getD [], row.length = (p.columns.getD []).length) (command : String) :
    p.toResult command =
      .ok ⟨p.columns.getD [], p.data.getD [], p.recordsRead, p.time.getD .zero, h⟩ := by
  have hnone : firstRagged? (p.columns.getD []).length 0 (p.data.getD []) = none :=
    firstRagged?_eq_none h
  unfold toResult
  dsimp only
  split
  · rfl
  · next hsome =>
    rw [hnone] at hsome
    cases hsome

/-- Items that are read back one by one are read back together. -/
theorem Json.readList_map {α : Type} {read : Json → Except Mismatch α} {value : α → Json}
    (h : ∀ x, read (value x) = .ok x) (xs : List α) :
    Json.readList read (.array (xs.map value)) = .ok xs := by
  show (xs.map value).mapM read = .ok xs
  induction xs with
  | nil => rfl
  | cons x xs ih =>
    rw [List.map_cons, List.mapM_cons, h, ih]
    rfl

theorem readTexts (texts : List String) :
    Json.readList Json.readString (textsValue texts) = .ok texts := by
  have hcell : ∀ s, Json.readString (.string s) = .ok s := fun _ => rfl
  exact Json.readList_map hcell texts

theorem Json.readOption_array {α : Type} {read : Json → Except Mismatch α} {items : List Json}
    {a : α} (h : read (.array items) = .ok a) :
    Json.readOption read (.array items) = .ok (some a) := by
  show (read (.array items)).map some = _
  rw [h]
  rfl

theorem Json.readUnsigned_toNat (n : UInt64) : Json.readUnsigned (.integer n.toNat) = .ok n := by
  have hn : (n.toNat : Int) ≤ maxUnsigned := Int.ofNat_le.2 (Nat.le_of_lt_succ n.toNat_lt)
  simp [Json.readUnsigned, hn]

/-- The payload holds what the value was made of. -/
theorem read_resultValue (columns : List String) (rows : List (List String)) (n : UInt64) :
    QueryPayload.schema.read .defaults (resultValue columns rows n) =
      .ok ⟨some columns, some rows, n, none⟩ := by
  have hcolumns : Json.readOption (Json.readList Json.readString) (textsValue columns) =
      .ok (some columns) :=
    Json.readOption_array (readTexts columns)
  have hrows : QueryPayload.readRows (.array (rows.map textsValue)) = .ok (some rows) :=
    Json.readOption_array (Json.readList_map readTexts rows)
  let p : QueryPayload := { QueryPayload.defaults with columns := some columns }
  let p' : QueryPayload := { p with data := some rows }
  have hfirst : QueryPayload.schema.readMember .defaults ("columns", textsValue columns) =
      .ok p := by
    show (Json.readOption (Json.readList Json.readString) (textsValue columns)).map _ = _
    rw [hcolumns]
    rfl
  have hsecond : QueryPayload.schema.readMember p ("data", .array (rows.map textsValue)) =
      .ok p' := by
    show (QueryPayload.readRows (.array (rows.map textsValue))).map _ = _
    rw [hrows]
    rfl
  have hthird : QueryPayload.schema.readMember p' ("records_read", .integer n.toNat) =
      .ok { p' with recordsRead := n } := by
    show (Json.readUnsigned (.integer n.toNat)).map _ = _
    rw [Json.readUnsigned_toNat]
    rfl
  show List.foldlM QueryPayload.schema.readMember .defaults _ = _
  rw [List.foldlM_cons, hfirst]
  show List.foldlM QueryPayload.schema.readMember p _ = _
  rw [List.foldlM_cons, hsecond]
  show List.foldlM QueryPayload.schema.readMember p' _ = _
  rw [List.foldlM_cons, hthird]
  rfl

namespace Envelope

/-- The line is read as an envelope with these rows. -/
theorem decode_queryLine (e : Escaping) (columns : List String) (rows : List (List String))
    (n : UInt64) (command : String) :
    decode (queryLine e columns rows n) command =
      .ok ⟨true, some "query", some (resultValue columns rows n), none⟩ := by
  rw [decode_eq_ok_iff, read, queryLine, (writtenReply e columns rows n).scan_bytes, run_tokens]
  let f : Fields := { Fields.empty with success := some true }
  let f' : Fields := { f with kind := some (some "query") }
  let f'' : Fields := { f' with result := some (some (resultValue columns rows n)) }
  have hsuccess : readMember .empty (e.pieces "success", .word (.truth true)) = .ok f :=
    readMember_of_fresh (e.keepText_pieces "success") rfl _
  have hkind : readMember f (e.pieces "type", .text (e.pieces "query")) = .ok f' := by
    rw [readMember_of_fresh (e.keepText_pieces "type") rfl,
      show Slot.ofName "type" = .kind from rfl, readField, Tree.first, readText?,
      e.keepText_pieces]
    rfl
  have hresult : readMember f' (e.pieces "result", (writtenResult e columns rows n).tree) =
      .ok f'' := by
    have hkept : resultReading.eval 0 (writtenResult e columns rows n).tree =
        .ok (resultValue columns rows n) := keptAs_result e columns rows n
    rw [readMember_of_fresh (e.keepText_pieces "result") rfl,
      show Slot.ofName "result" = .result from rfl, readField, hkept]
    rfl
  have hmembers : [(e.pieces "success", Tree.word (.truth true)),
      (e.pieces "type", .text (e.pieces "query")),
      (e.pieces "result", (writtenResult e columns rows n).tree)].foldlM readMember .empty =
        .ok f'' := by
    rw [List.foldlM_cons, hsuccess]
    show List.foldlM readMember f _ = _
    rw [List.foldlM_cons, hkind]
    show List.foldlM readMember f' _ = _
    rw [List.foldlM_cons, hresult]
    rfl
  exact congrArg (Except.map Fields.toEnvelope) hmembers

/-- An accepted reply of the type `query` is the result that its payload gives. -/
theorem toResult_of_payload {e : Envelope} {p : QueryPayload} {q : QueryResult} {command : String}
    (hsuccess : e.success = true) (hkind : e.kind = some "query")
    (hpayload : e.payload QueryPayload.schema .defaults command = .ok p)
    (hresult : p.toResult command = .ok q) : e.toResult command = .ok (.query q) := by
  have haccepted : e.ensureSuccess command = .ok e := if_pos hsuccess
  rw [toResult, haccepted]
  simp only [bind, Except.bind, if_pos hkind, hpayload, hresult]

/-- The result is the columns, rows and counter that were written. -/
theorem toResult_queryLine (h : ∀ row ∈ rows, row.length = columns.length) (command : String) :
    toResult ⟨true, some "query", some (resultValue columns rows n), none⟩ command =
      .ok (.query ⟨columns, rows, n, .zero, h⟩) := by
  have hread : QueryPayload.schema.read? .defaults (some (resultValue columns rows n)) =
      .ok ⟨some columns, some rows, n, none⟩ := read_resultValue columns rows n
  refine toResult_of_payload (p := ⟨some columns, some rows, n, none⟩) rfl rfl ?_ ?_
  · rw [payload, hread]
  · exact QueryPayload.toResult_of_rectangular (p := ⟨some columns, some rows, n, none⟩) h command

end Envelope
end DbClient
