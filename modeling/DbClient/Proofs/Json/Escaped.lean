import DbClient.Json.Reader
import DbClient.Proofs.Json.Scanned
import DbClient.Proofs.Text.RoundTrip

/-!
# Written texts and integers

How a writer puts texts and integers on a line: a text between quotes, with escapes for the
characters that may not stand in it, and an integer in decimal. Each is one token again, and is
kept as what was written.
-/

namespace DbClient.Json

/-! ## Texts -/

/-- Part of a line between two brackets or quotes. -/
def enclosed (first last : UInt8) (body : Bytes) : Bytes :=
  first :: (body ++ [last])

/-- Bytes without control characters. -/
def IsPlain (bs : Bytes) : Prop :=
  ∀ b ∈ bs, 0x20 ≤ b

theorem IsPlain.append {a b : Bytes} (ha : IsPlain a) (hb : IsPlain b) : IsPlain (a ++ b) :=
  List.forall_mem_append.2 ⟨ha, hb⟩

theorem IsPlain.enclosed {first last : UInt8} {body : Bytes} (h : IsPlain body)
    (hfirst : 0x20 ≤ first) (hlast : 0x20 ≤ last) : IsPlain (enclosed first last body) :=
  List.forall_mem_cons.2 ⟨hfirst, h.append (List.forall_mem_cons.2 ⟨hlast, nofun⟩)⟩

/-- Whether a character may not stand in a text as it is. -/
def mustEscape (c : Char) : Bool :=
  c == '"' || c == '\\' || c.toNat < 0x20

/-- The letters behind the backslash, by the code points of the characters that have one. -/
def escapeLetters : List (Nat × UInt8) :=
  [(0x22, 0x22), (0x5C, 0x5C), (0x08, 0x62), (0x09, 0x74), (0x0A, 0x6E), (0x0C, 0x66),
    (0x0D, 0x72)]

/-- A digit of a code unit. -/
def hexLetter (upper : Bool) (n : Nat) : UInt8 :=
  UInt8.ofNat (n + if n < 10 then 0x30 else if upper then 0x37 else 0x57)

/-- What a writer is free to choose for each character that it has to escape: the letter, if
there is one, or the code unit, and the case of its digits. -/
structure Escaping where
  byLetter : Char → Bool
  upper : Char → Bool

namespace Escaping

variable (e : Escaping)

/-- The letter that this writer uses for a character. -/
def letter? (c : Char) : Option UInt8 :=
  if e.byLetter c then escapeLetters.lookup c.toNat else none

/-- A character of a text, as it is written. -/
def char (c : Char) : Bytes :=
  if mustEscape c then
    match e.letter? c with
    | some letter => [0x5C, letter]
    | none =>
      [0x5C, 0x75, 0x30, 0x30, hexLetter (e.upper c) (c.toNat / 16),
        hexLetter (e.upper c) (c.toNat % 16)]
  else String.utf8EncodeChar c

/-- A text, as it is written. -/
def text (s : String) : Bytes :=
  enclosed 0x22 0x22 (s.toList.flatMap e.char)

/-- The pieces that a written character is read as. -/
def charPieces (c : Char) : List Piece :=
  if mustEscape c then
    match e.letter? c with
    | some _ => [.byte (UInt8.ofNat c.toNat)]
    | none => [.unit c.toNat]
  else (String.utf8EncodeChar c).map .byte

/-- The pieces that a written text is read as. -/
def pieces (s : String) : List Piece :=
  s.toList.flatMap e.charPieces

end Escaping

theorem lt_of_mustEscape {c : Char} (h : mustEscape c = true) : c.toNat < 0x80 := by
  simp only [mustEscape, Bool.or_eq_true, beq_iff_eq, decide_eq_true_eq] at h
  rcases h with (rfl | rfl) | h
  · decide
  · decide
  · omega

theorem escaped?_of_mem : ∀ p ∈ escapeLetters,
    p.2 ≠ 0x75 ∧ escaped? p.2 = some (UInt8.ofNat p.1) ∧ 0x20 ≤ p.2 := by
  decide +kernel

theorem hexDigit?_hexLetter : ∀ upper, ∀ n < 16, hexDigit? (hexLetter upper n) = some n ∧
    0x20 ≤ hexLetter upper n := by
  decide +kernel

namespace Escaping

variable (e : Escaping) {c : Char}

theorem escaped?_of_letter {x : UInt8} (h : e.letter? c = some x) :
    x ≠ 0x75 ∧ escaped? x = some (UInt8.ofNat c.toNat) ∧ 0x20 ≤ x := by
  rw [letter?] at h
  split at h
  · obtain ⟨before, after, hletters, -⟩ := List.lookup_eq_some_iff.1 h
    exact escaped?_of_mem (c.toNat, x) (by simp [hletters])
  · cases h

/-- A byte that stands for itself in a text. -/
theorem feed_plain {b : UInt8} (h : 0x20 ≤ b) (hquote : b ≠ 0x22) (hescape : b ≠ 0x5C)
    (read : List Piece) : (Scan.text read).feed b = ([], some (.text (.byte b :: read))) := by
  simp only [Scan.feed, if_neg hquote, if_neg hescape, if_neg (UInt8.not_lt.2 h)]

theorem plain_of_mem (h : mustEscape c = false) {b : UInt8} (hb : b ∈ String.utf8EncodeChar c) :
    0x20 ≤ b ∧ b ≠ 0x22 ∧ b ≠ 0x5C := by
  have ascii : ∀ n < 0x80, mustEscape (Char.ofNat n) = false →
      0x20 ≤ UInt8.ofNat n ∧ UInt8.ofNat n ≠ 0x22 ∧ UInt8.ofNat n ≠ 0x5C := by
    decide +kernel
  have high : ∀ b : UInt8, 0x80 ≤ b → 0x20 ≤ b ∧ b ≠ 0x22 ∧ b ≠ 0x5C := by
    decide +kernel
  by_cases hc : c.toNat < 0x80
  · rw [Utf8.encodeChar_of_ascii hc, List.mem_singleton] at hb
    subst hb
    exact ascii c.toNat hc (by rwa [Char.ofNat_toNat])
  · exact high b (Utf8.le_of_mem_encodeChar (Nat.not_lt.1 hc) hb)

theorem tokens_plain {bs : Bytes} (h : ∀ b ∈ bs, 0x20 ≤ b ∧ b ≠ 0x22 ∧ b ≠ 0x5C)
    (read : List Piece) (rest : Bytes) :
    Scan.tokens (.text read) (bs ++ rest) =
      Scan.tokens (.text ((bs.map Piece.byte).reverse ++ read)) rest := by
  induction bs generalizing read with
  | nil => rfl
  | cons b bs ih =>
    obtain ⟨⟨hb, hquote, hescape⟩, hbs⟩ := List.forall_mem_cons.1 h
    rw [List.cons_append, Scan.tokens, feed_plain hb hquote hescape, List.map_cons,
      List.reverse_cons, List.append_assoc]
    exact ih hbs (.byte b :: read)

/-- A written character is read as its pieces. -/
theorem tokens_char (c : Char) (read : List Piece) (rest : Bytes) :
    Scan.tokens (.text read) (e.char c ++ rest) =
      Scan.tokens (.text ((e.charPieces c).reverse ++ read)) rest := by
  rw [char, charPieces]
  cases hc : mustEscape c with
  | false =>
    exact tokens_plain (fun b hb => plain_of_mem hc hb) read rest
  | true =>
    simp only [if_true]
    cases hletter : e.letter? c with
    | some x =>
      obtain ⟨hunit, hescaped, -⟩ := e.escaped?_of_letter hletter
      simp [Scan.tokens, Scan.feed, hunit, hescaped]
    | none =>
      have hlt := lt_of_mustEscape hc
      have hhigh := (hexDigit?_hexLetter (e.upper c) (c.toNat / 16) (by omega)).1
      have hlow := (hexDigit?_hexLetter (e.upper c) (c.toNat % 16) (by omega)).1
      have hzero : hexDigit? 0x30 = some 0 := rfl
      have hvalue : c.toNat / 16 * 16 + c.toNat % 16 = c.toNat := by omega
      simp [Scan.tokens, Scan.feed, hhigh, hlow, hzero, hvalue]

theorem tokens_chars (cs : List Char) (read : List Piece) (rest : Bytes) :
    Scan.tokens (.text read) (cs.flatMap e.char ++ rest) =
      Scan.tokens (.text ((cs.flatMap e.charPieces).reverse ++ read)) rest := by
  induction cs generalizing read with
  | nil => rfl
  | cons c cs ih =>
    rw [List.flatMap_cons, List.append_assoc, tokens_char, ih, List.flatMap_cons,
      List.reverse_append, List.append_assoc]

/-- A written text is one token. -/
theorem scan_text (s : String) : scan (e.text s) = [.text (e.pieces s) .closed] := by
  have hopen : scan (e.text s) = Scan.tokens (.text []) (s.toList.flatMap e.char ++ [0x22]) := rfl
  rw [hopen, tokens_chars, List.append_nil, ← pieces]
  simp [Scan.tokens, Scan.feed, Scan.finish]

/-- A character's pieces are its bytes. -/
theorem joinPieces_charPieces (c : Char) (rest : List Piece) :
    joinPieces (e.charPieces c ++ rest) .closed =
      (joinPieces rest .closed).map (String.utf8EncodeChar c ++ ·) := by
  have hbytes : ∀ bs : Bytes, joinPieces (bs.map Piece.byte ++ rest) .closed =
      (joinPieces rest .closed).map (bs ++ ·) := by
    intro bs
    induction bs with
    | nil =>
      rw [List.map_nil, List.nil_append]
      cases joinPieces rest .closed <;> rfl
    | cons b bs ih =>
      rw [List.map_cons, List.cons_append, joinPieces, ih]
      cases joinPieces rest .closed <;> rfl
  rw [charPieces]
  cases hc : mustEscape c with
  | false => exact hbytes _
  | true =>
    have hlt := lt_of_mustEscape hc
    simp only [if_true]
    cases hletter : e.letter? c with
    | some x =>
      rw [Utf8.encodeChar_of_ascii hlt]
      exact hbytes [UInt8.ofNat c.toNat]
    | none =>
      have hlow : isLowSurrogate c.toNat = false := by
        simp only [isLowSurrogate, Bool.and_eq_false_iff, decide_eq_false_iff_not]
        omega
      have hhigh : isHighSurrogate c.toNat = false := by
        simp only [isHighSurrogate, Bool.and_eq_false_iff, decide_eq_false_iff_not]
        omega
      rw [List.singleton_append, joinPieces.eq_def]
      simp only [hlow, hhigh, Char.ofNat_toNat]
      rfl

theorem joinPieces_pieces (s : String) :
    joinPieces (e.pieces s) .closed = .ok (Utf8.encode s) := by
  rw [pieces, Utf8.encode]
  induction s.toList with
  | nil => rfl
  | cons c cs ih =>
    rw [List.flatMap_cons, joinPieces_charPieces, ih, List.flatMap_cons]
    rfl

/-- The token is kept as the text that was written. -/
theorem keepText_pieces (s : String) : keepText (e.pieces s) .closed = .ok s := by
  rw [keepText, joinPieces_pieces]
  simp only [bind, Except.bind, Utf8.decode?_encode]

theorem isPlain_char (c : Char) : IsPlain (e.char c) := by
  rw [char]
  cases hc : mustEscape c with
  | false => exact fun b hb => (plain_of_mem hc hb).1
  | true =>
    have hlt := lt_of_mustEscape hc
    have hhigh := (hexDigit?_hexLetter (e.upper c) (c.toNat / 16) (by omega)).2
    have hlow := (hexDigit?_hexLetter (e.upper c) (c.toNat % 16) (by omega)).2
    have hbackslash : (0x20 : UInt8) ≤ 0x5C := by decide
    have hunit : (0x20 : UInt8) ≤ 0x75 := by decide
    have hzero : (0x20 : UInt8) ≤ 0x30 := by decide
    rw [if_pos rfl]
    cases hletter : e.letter? c with
    | some x => simp [IsPlain, hbackslash, (e.escaped?_of_letter hletter).2.2]
    | none => simp [IsPlain, hbackslash, hunit, hzero, hhigh, hlow]

/-- A written text has no control characters, and so no line break. -/
theorem isPlain_text (s : String) : IsPlain (e.text s) := by
  have hchars : IsPlain (s.toList.flatMap e.char) := by
    intro b hb
    obtain ⟨c, -, hb⟩ := List.mem_flatMap.1 hb
    exact e.isPlain_char c b hb
  exact hchars.enclosed (by decide) (by decide)

end Escaping

/-! ## Integers -/

/-- An integer, as it is written. -/
def writeInteger (n : Int) : Bytes :=
  Utf8.encode (toString n)

/-- What a written integer is read as. -/
def Numeral.ofInt (n : Int) : Numeral :=
  { Numeral.start (n < 0) with coefficient := n.natAbs }

section Digits

variable {n d : Nat}

theorem encode_digit (h : d < 10) : Utf8.encode (String.ofList [d.digitChar]) =
    [UInt8.ofNat (d + 0x30)] := by
  have hall : ∀ d < 10, Utf8.encode (String.ofList [d.digitChar]) = [UInt8.ofNat (d + 0x30)] := by
    decide +kernel
  exact hall d h

theorem encode_toString_of_lt (h : n < 10) : Utf8.encode (toString n) =
    [UInt8.ofNat (n + 0x30)] := by
  rw [← encode_digit h]
  show Utf8.encode (Nat.repr n) = _
  rw [Nat.repr, Nat.toDigits_of_lt_base h]

theorem encode_toString_of_le (h : 10 ≤ n) : Utf8.encode (toString n) =
    Utf8.encode (toString (n / 10)) ++ [UInt8.ofNat (n % 10 + 0x30)] := by
  rw [← encode_digit (Nat.mod_lt n (by decide))]
  show Utf8.encode (Nat.repr n) = Utf8.encode (Nat.repr (n / 10)) ++ _
  rw [Nat.repr, Nat.toDigits_of_base_le (by decide) h]
  simp [Utf8.encode, Nat.repr]

theorem feed_whole (h : d < 10) (m : Numeral) :
    (Scan.number m .whole).feed (UInt8.ofNat (d + 0x30)) =
      ([], some (.number { m with coefficient := m.coefficient * 10 + d } .whole)) := by
  have hall : ∀ d < 10, isDigit (UInt8.ofNat (d + 0x30)) = true ∧
      digit (UInt8.ofNat (d + 0x30)) = d := by
    decide +kernel
  obtain ⟨hdigit, hvalue⟩ := hall d h
  simp only [Scan.feed, Numeral.feed?, Numeral.addDigit, hdigit, hvalue, if_true]

/-- The digits of a natural number are read one after another. -/
theorem tokens_digits (s : Scan) (negative : Bool)
    (hzero : s.feed 0x30 = ([], some (.number (.start negative) .zero)))
    (hdigit : ∀ d < 10, d ≠ 0 → s.feed (UInt8.ofNat (d + 0x30)) =
      ([], some (.number { Numeral.start negative with coefficient := d } .whole)))
    (n : Nat) (rest : Bytes) :
    Scan.tokens s (Utf8.encode (toString n) ++ rest) =
      Scan.tokens (.number { Numeral.start negative with coefficient := n }
        (if n = 0 then .zero else .whole)) rest := by
  induction n using Nat.strongRecOn generalizing rest with
  | ind n ih =>
    by_cases hlt : n < 10
    · rw [encode_toString_of_lt hlt, List.singleton_append, Scan.tokens]
      by_cases hn : n = 0
      · subst hn
        rw [show UInt8.ofNat (0 + 0x30) = 0x30 from rfl, hzero]
        rfl
      · rw [hdigit n hlt hn, if_neg hn]
        rfl
    · rw [encode_toString_of_le (by omega), List.append_assoc, ih (n / 10) (by omega),
        if_neg (by omega), if_neg (by omega), List.singleton_append, Scan.tokens,
        feed_whole (Nat.mod_lt n (by decide))]
      simp only [List.nil_append, show n / 10 * 10 + n % 10 = n by omega]

end Digits

theorem writeInteger_negSucc (n : Nat) :
    writeInteger (.negSucc n) = 0x2D :: Utf8.encode (toString (n + 1)) := by
  have hsign : Utf8.encode "-" = [0x2D] := by decide +kernel
  show Utf8.encode ("-" ++ toString (n + 1)) = _
  rw [Utf8.encode, String.toList_append, List.flatMap_append, ← Utf8.encode, hsign]
  rfl

/-- A written integer is one token. -/
theorem scan_writeInteger (n : Int) : scan (writeInteger n) = [.number (.ofInt n) .closed] := by
  have hend : ∀ (m : Numeral) (k : Nat),
      Scan.tokens (.number m (if k = 0 then .zero else .whole)) [] = [.number m .closed] := by
    intro m k
    by_cases hk : k = 0 <;> simp [Scan.tokens, Scan.finish, Stage.mayEnd, hk]
  cases n with
  | ofNat n =>
    have hstart : ∀ d < 10, d ≠ 0 → Scan.between.feed (UInt8.ofNat (d + 0x30)) =
        ([], some (.number { Numeral.start false with coefficient := d } .whole)) := by
      decide +kernel
    have hdigits := tokens_digits .between false rfl hstart n []
    rw [List.append_nil, hend] at hdigits
    exact hdigits
  | negSucc n =>
    have hstart : ∀ d < 10, d ≠ 0 →
        (Scan.number (.start true) .sign).feed (UInt8.ofNat (d + 0x30)) =
          ([], some (.number { Numeral.start true with coefficient := d } .whole)) := by
      decide +kernel
    have hdigits := tokens_digits (.number (.start true) .sign) true rfl hstart (n + 1) []
    rw [List.append_nil, hend] at hdigits
    have hnumeral : Numeral.ofInt (.negSucc n) =
        { Numeral.start true with coefficient := n + 1 } := by
      simp [Numeral.ofInt, Int.negSucc_lt_zero]
    rw [writeInteger_negSucc, hnumeral]
    exact hdigits

theorem isPlain_writeInteger (n : Int) : IsPlain (writeInteger n) := by
  have hdigit : ∀ d < 10, 0x20 ≤ UInt8.ofNat (d + 0x30) := by decide +kernel
  have hdigits : ∀ n : Nat, IsPlain (Utf8.encode (toString n)) := by
    intro n
    induction n using Nat.strongRecOn with
    | ind n ih =>
      by_cases hlt : n < 10
      · rw [encode_toString_of_lt hlt]
        simpa [IsPlain] using hdigit n hlt
      · rw [encode_toString_of_le (by omega)]
        refine (ih (n / 10) (by omega)).append ?_
        simpa [IsPlain] using hdigit (n % 10) (Nat.mod_lt n (by decide))
  cases n with
  | ofNat n => exact hdigits n
  | negSucc n =>
    rw [writeInteger_negSucc]
    exact List.forall_mem_cons.2 ⟨by decide, hdigits (n + 1)⟩

/-- An integer of at most sixty-four bits is kept. -/
theorem keepNumber_ofInt {n : Int} (h : (Numeral.ofInt n).isInteger = true) :
    keepNumber (.ofInt n) .closed = .ok (.integer n) := by
  have hvalue : (if (Numeral.ofInt n).negative then -((Numeral.ofInt n).coefficient : Int)
      else (Numeral.ofInt n).coefficient) = n := by
    simp only [Numeral.ofInt, Numeral.start, decide_eq_true_iff]
    split <;> omega
  simp only [keepNumber, Ending.check, if_pos h, hvalue, bind, Except.bind]

end DbClient.Json
