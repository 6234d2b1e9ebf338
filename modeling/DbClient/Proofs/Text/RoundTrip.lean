import DbClient.Text.Utf8

/-!
# Reading UTF-8 back

What a text is written as is read as that text: each character's sequence is read to its end,
and the narrowed bounds of the second byte keep out no sequence of a character.
-/

namespace DbClient.Utf8

variable {lower upper : UInt8} {due bits n : Nat}

/-! ## Sequences -/

theorem feed_tail (hlower : lower.toNat ≤ n % 64 + 128) (hupper : n % 64 + 128 ≤ upper.toNat) :
    feed (some ⟨due, lower, upper, bits⟩) (UInt8.ofNat (n % 64 + 128)) =
      if due = 1 then ([some (Char.ofNat (bits * 64 + n % 64))], none)
      else ([], some ⟨due - 1, 0x80, 0xBF, bits * 64 + n % 64⟩) := by
  have hbyte : (UInt8.ofNat (n % 64 + 128)).toNat = n % 64 + 128 :=
    UInt8.toNat_ofNat'.trans (Nat.mod_eq_of_lt (by omega))
  have hbounds : (lower ≤ UInt8.ofNat (n % 64 + 128) && UInt8.ofNat (n % 64 + 128) ≤ upper) =
      true := by
    rw [Bool.and_eq_true, decide_eq_true_iff, decide_eq_true_iff, UInt8.le_iff_toNat_le,
      UInt8.le_iff_toNat_le, hbyte]
    exact ⟨hlower, hupper⟩
  simp only [feed, hbounds, hbyte, Nat.add_sub_cancel, if_true]

theorem segmentsFrom_more (hdue : due ≠ 1) (hlower : lower.toNat ≤ n % 64 + 128)
    (hupper : n % 64 + 128 ≤ upper.toNat) (rest : Bytes) :
    segmentsFrom (some ⟨due, lower, upper, bits⟩) (UInt8.ofNat (n % 64 + 128) :: rest) =
      segmentsFrom (some ⟨due - 1, 0x80, 0xBF, bits * 64 + n % 64⟩) rest := by
  rw [segmentsFrom, feed_tail hlower hupper, if_neg hdue]
  rfl

theorem segmentsFrom_last (rest : Bytes) :
    segmentsFrom (some ⟨1, 0x80, 0xBF, bits⟩) (UInt8.ofNat (n % 64 + 128) :: rest) =
      some (Char.ofNat (bits * 64 + n % 64)) :: segmentsFrom none rest := by
  have hlower : (0x80 : UInt8).toNat ≤ n % 64 + 128 := Nat.le_add_left _ _
  have hupper : n % 64 + 128 ≤ (0xBF : UInt8).toNat := by
    show n % 64 + 128 ≤ 191
    omega
  rw [segmentsFrom, feed_tail hlower hupper, if_pos rfl]
  rfl

/-- The first byte of a sequence of two, three or four. -/
theorem start_lead (h : 194 ≤ n) (hn : n < 245) :
    start (UInt8.ofNat n) =
      if n < 224 then ([], some ⟨1, 0x80, 0xBF, n - 192⟩)
      else if n < 240 then
        ([], some ⟨2, if n = 224 then 0xA0 else 0x80, if n = 237 then 0x9F else 0xBF, n - 224⟩)
      else
        ([], some ⟨3, if n = 240 then 0x90 else 0x80, if n = 244 then 0x8F else 0xBF,
          n - 240⟩) := by
  have hbyte : (UInt8.ofNat n).toNat = n :=
    UInt8.toNat_ofNat'.trans (Nat.mod_eq_of_lt (by omega))
  have hlt : ∀ b : UInt8, UInt8.ofNat n < b ↔ n < b.toNat := by
    intro b
    rw [UInt8.lt_iff_toNat_lt, hbyte]
  have heq : ∀ b : UInt8, UInt8.ofNat n = b ↔ n = b.toNat := by
    intro b
    rw [← UInt8.toNat_inj, hbyte]
  have hascii : ¬n < 0x80 := by omega
  have hoverlong : ¬n < 0xC2 := by omega
  simp only [start, hlt, heq, hbyte, UInt8.toNat_ofNat, Nat.reducePow, Nat.reduceMod, hascii,
    hoverlong, hn, if_true, if_false]

/-! ## Characters -/

section Characters

variable {v : Nat} (rest : Bytes)

theorem segmentsFrom_one (hv : v ≤ 127) :
    segmentsFrom none (UInt8.ofNat v :: rest) = some (Char.ofNat v) :: segmentsFrom none rest := by
  have hbyte : (UInt8.ofNat v).toNat = v :=
    UInt8.toNat_ofNat'.trans (Nat.mod_eq_of_lt (by omega))
  have hascii : UInt8.ofNat v < 0x80 := by
    rw [UInt8.lt_iff_toNat_lt, hbyte]
    exact Nat.lt_succ_of_le hv
  rw [segmentsFrom, feed, start, if_pos hascii, hbyte]
  rfl

theorem segmentsFrom_two (hlow : 127 < v) (hv : v ≤ 2047) :
    segmentsFrom none (UInt8.ofNat (v / 64 % 32 + 192) :: UInt8.ofNat (v % 64 + 128) :: rest) =
      some (Char.ofNat v) :: segmentsFrom none rest := by
  have hbits : v / 64 % 32 * 64 + v % 64 = v := by omega
  rw [segmentsFrom, feed, start_lead (by omega) (by omega), if_pos (by omega)]
  simp only [List.nil_append, Nat.add_sub_cancel]
  rw [segmentsFrom_last, hbits]

/-- The bounds of the second byte keep out overlong forms and surrogates, and nothing else. -/
theorem segmentsFrom_three (hlow : 2047 < v) (hv : v ≤ 65535)
    (hscalar : ¬(0xD800 ≤ v ∧ v < 0xE000)) :
    segmentsFrom none (UInt8.ofNat (v / 4096 % 16 + 224) :: UInt8.ofNat (v / 64 % 64 + 128) ::
        UInt8.ofNat (v % 64 + 128) :: rest) =
      some (Char.ofNat v) :: segmentsFrom none rest := by
  have hbits : (v / 4096 % 16 * 64 + v / 64 % 64) * 64 + v % 64 = v := by omega
  have hlower : (if v / 4096 % 16 + 224 = 224 then (0xA0 : UInt8) else 0x80).toNat ≤
      v / 64 % 64 + 128 := by
    split
    · show 0xA0 ≤ _
      omega
    · exact Nat.le_add_left _ _
  have hupper : v / 64 % 64 + 128 ≤
      (if v / 4096 % 16 + 224 = 237 then (0x9F : UInt8) else 0xBF).toNat := by
    split
    · show _ ≤ 0x9F
      omega
    · show _ ≤ 0xBF
      omega
  rw [segmentsFrom, feed, start_lead (by omega) (by omega), if_neg (by omega), if_pos (by omega)]
  simp only [List.nil_append, Nat.add_sub_cancel]
  rw [segmentsFrom_more (by decide) hlower hupper, segmentsFrom_last, hbits]

/-- They keep out overlong forms and what lies above the last code point, and nothing else. -/
theorem segmentsFrom_four (hlow : 65535 < v) (hv : v < 0x110000) :
    segmentsFrom none (UInt8.ofNat (v / 262144 % 8 + 240) :: UInt8.ofNat (v / 4096 % 64 + 128) ::
        UInt8.ofNat (v / 64 % 64 + 128) :: UInt8.ofNat (v % 64 + 128) :: rest) =
      some (Char.ofNat v) :: segmentsFrom none rest := by
  have hbits : ((v / 262144 % 8 * 64 + v / 4096 % 64) * 64 + v / 64 % 64) * 64 + v % 64 = v := by
    omega
  have hlower : (if v / 262144 % 8 + 240 = 240 then (0x90 : UInt8) else 0x80).toNat ≤
      v / 4096 % 64 + 128 := by
    split
    · show 0x90 ≤ _
      omega
    · exact Nat.le_add_left _ _
  have hupper : v / 4096 % 64 + 128 ≤
      (if v / 262144 % 8 + 240 = 244 then (0x8F : UInt8) else 0xBF).toNat := by
    split
    · show _ ≤ 0x8F
      omega
    · show _ ≤ 0xBF
      omega
  have hlower' : (0x80 : UInt8).toNat ≤ v / 64 % 64 + 128 := Nat.le_add_left _ _
  have hupper' : v / 64 % 64 + 128 ≤ (0xBF : UInt8).toNat := by
    show _ ≤ 0xBF
    omega
  rw [segmentsFrom, feed, start_lead (by omega) (by omega), if_neg (by omega), if_neg (by omega)]
  simp only [List.nil_append, Nat.add_sub_cancel]
  rw [segmentsFrom_more (by decide) hlower hupper, segmentsFrom_more (by decide) hlower' hupper',
    segmentsFrom_last, hbits]

theorem segmentsFrom_char (c : Char) :
    segmentsFrom none (String.utf8EncodeChar c ++ rest) = some c :: segmentsFrom none rest := by
  obtain ⟨hmax, hscalar⟩ :
      c.val.toNat < 0x110000 ∧ ¬(0xD800 ≤ c.val.toNat ∧ c.val.toNat < 0xE000) := by
    have hvalid : c.val.toNat < 0xD800 ∨ 0xDFFF < c.val.toNat ∧ c.val.toNat < 0x110000 := c.valid
    omega
  have hchar : Char.ofNat c.val.toNat = c := Char.ofNat_toNat c
  simp only [String.utf8EncodeChar]
  by_cases hone : c.val.toNat ≤ 127
  · rw [if_pos hone]
    exact (segmentsFrom_one rest hone).trans (by rw [hchar])
  rw [if_neg hone]
  by_cases htwo : c.val.toNat ≤ 2047
  · rw [if_pos htwo]
    exact (segmentsFrom_two rest (by omega) htwo).trans (by rw [hchar])
  rw [if_neg htwo]
  by_cases hthree : c.val.toNat ≤ 65535
  · rw [if_pos hthree]
    exact (segmentsFrom_three rest (by omega) hthree hscalar).trans (by rw [hchar])
  · rw [if_neg hthree]
    exact (segmentsFrom_four rest (by omega) hmax).trans (by rw [hchar])

end Characters

/-! ## Texts -/

theorem segments_encode (s : String) : segments (encode s) = s.toList.map some := by
  rw [segments, encode]
  induction s.toList with
  | nil => rfl
  | cons c cs ih => rw [List.flatMap_cons, segmentsFrom_char, ih, List.map_cons]

theorem decode?_encode (s : String) : decode? (encode s) = some s := by
  have hall : ∀ cs : List Char, (cs.map some).mapM id = some cs := by
    intro cs
    induction cs with
    | nil => rfl
    | cons c cs ih => simp [ih]
  rw [decode?, segments_encode, hall, Option.map_some, String.ofList_toList]

/-! ## Bytes of a text -/

theorem le_ofNat (hlow : 0x80 ≤ n) (hn : n < 256) : 0x80 ≤ UInt8.ofNat n := by
  rw [UInt8.le_iff_toNat_le, UInt8.toNat_ofNat_of_lt' hn]
  exact hlow

/-- A character outside ASCII is written without ASCII bytes. -/
theorem le_of_mem_encodeChar {c : Char} (h : 0x80 ≤ c.toNat) {b : UInt8}
    (hb : b ∈ String.utf8EncodeChar c) : 0x80 ≤ b := by
  have hwide : ¬c.val.toNat ≤ 127 := Nat.not_le.2 h
  simp only [String.utf8EncodeChar, if_neg hwide] at hb
  repeat' split at hb
  all_goals
    simp only [List.mem_cons, List.not_mem_nil, or_false] at hb
    rcases hb with rfl | rfl | rfl | rfl <;> exact le_ofNat (by omega) (by omega)

theorem encodeChar_of_ascii {c : Char} (h : c.toNat < 0x80) :
    String.utf8EncodeChar c = [UInt8.ofNat c.toNat] := by
  rw [String.utf8EncodeChar]
  exact if_pos (Nat.le_of_lt_succ h)

/-- An ASCII byte of a text is a character of it. -/
theorem ofNat_mem_of_mem_encode {s : String} {b : UInt8} (hb : b < 0x80) (h : b ∈ encode s) :
    Char.ofNat b.toNat ∈ s.toList := by
  obtain ⟨c, hc, hmem⟩ := List.mem_flatMap.1 h
  by_cases hascii : c.toNat < 0x80
  · rw [encodeChar_of_ascii hascii, List.mem_singleton] at hmem
    have hsize : c.toNat < UInt8.size := Nat.lt_trans hascii (by decide)
    rw [hmem, UInt8.toNat_ofNat_of_lt' hsize, Char.ofNat_toNat]
    exact hc
  · exact absurd hb (UInt8.not_lt.2 (le_of_mem_encodeChar (Nat.not_lt.1 hascii) hmem))

end DbClient.Utf8
