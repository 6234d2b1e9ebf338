import DbClient.Command.Statement

/-!
# How a settled conflict is written

The command that settles a conflict names it by a dotted path, and how it is settled stands
behind `USING`. Nothing is escaped. Names without dots are read back from the command, but a
key may go on with what reads as a value, and a value with what reads as the end of a key.
That, and nothing else, gives one command two readings.
-/

namespace DbClient

namespace Text

variable {α : Type}

/-- What stands before the first of its kind, and behind it, can be told. -/
theorem eq_of_append_cons_eq {a : α} {xs ys us vs : List α} (hx : a ∉ xs) (hy : a ∉ ys)
    (h : xs ++ a :: us = ys ++ a :: vs) : xs = ys ∧ us = vs := by
  induction xs generalizing ys with
  | nil =>
    cases ys with
    | nil => exact ⟨rfl, (List.cons.inj h).2⟩
    | cons y ys => exact absurd (List.mem_cons.2 (.inl (List.cons.inj h).1)) hy
  | cons x xs ih =>
    cases ys with
    | nil => exact absurd (List.mem_cons.2 (.inl (List.cons.inj h).1.symm)) hx
    | cons y ys =>
      obtain ⟨rfl, hrest⟩ := List.cons.inj h
      obtain ⟨rfl, rfl⟩ := ih (fun hm => hx (List.mem_cons_of_mem _ hm))
        (fun hm => hy (List.mem_cons_of_mem _ hm)) hrest
      exact ⟨rfl, rfl⟩

/-- Whether a text cannot overlap itself: of its beginnings only the empty one and the whole
text are ends of it. -/
def Borderless (q : List α) : Prop :=
  ∀ e, e <+: q → e <:+ q → e = [] ∨ e = q

/-- A text that cannot overlap itself stands at the same place on both sides, or twice on the
second. -/
theorem Borderless.split_eq {q : List α} (hq : Borderless q) {b v v' : List α}
    (h : q ++ v = b ++ (q ++ v')) :
    b = [] ∧ v = v' ∨ ∃ m, b = q ++ m ∧ v = m ++ (q ++ v') := by
  rcases List.append_eq_append_iff.1 h with ⟨m, rfl, hv⟩ | ⟨e, he, hv⟩
  · exact .inr ⟨m, rfl, hv⟩
  · have hend : e <:+ q := ⟨b, he.symm⟩
    have hbegin : e <+: q :=
      List.prefix_of_prefix_length_le ⟨v, hv.symm⟩ ⟨v', rfl⟩ hend.length_le
    -- the part that both sides share is nothing or all of it
    rcases hq e hbegin hend with rfl | rfl
    · rw [List.append_nil] at he
      subst he
      exact .inr ⟨[], by simp, hv.symm⟩
    · have hb : b = [] := by simpa using he
      exact .inl ⟨hb, (List.append_cancel_left hv).symm⟩

end Text

/-! ## Readings -/

/-- Whether a conflict with the key `key`, settled with `r`, is written as one with the key
`key'`, settled with `r'`: the value of the one begins with what the other has in its key, up
to the quote that opens the value of the other. -/
def Absorbs (key : String) (r : Resolution) (key' : String) (r' : Resolution) : Prop :=
  ∃ between value : String, key' = key ++ " USING '" ++ between ∧
    r = .value (between ++ " USING '" ++ value) ∧ r' = .value value

namespace Resolution

/-- The character that a resolution ends with. -/
def mark : Resolution → Char
  | head => 'D'
  | source => 'E'
  | value _ => '\''

theorem getLast?_write (r : Resolution) : r.write.toList.getLast? = some r.mark := by
  cases r with
  | value literal =>
    have hwrite : (value literal).write.toList = "'".toList ++ literal.toList ++ ['\''] := by
      rw [← String.toList_append, show ['\''] = "'".toList from rfl, ← String.toList_append]
      rfl
    rw [hwrite, List.getLast?_concat]
    rfl
  | _ => decide +kernel

theorem eq_or_values_of_mark_eq {r r' : Resolution} (h : r.mark = r'.mark) :
    r = r' ∨ ∃ v v', r = value v ∧ r' = value v' := by
  cases r <;> cases r' <;> simp_all [mark]

end Resolution

namespace Statement

theorem borderless_using : Text.Borderless " USING '".toList := by
  intro e hbegin hend
  have hlen : e.length ≤ 8 := hbegin.length_le
  have hshift : ∀ k ≤ 8, " USING '".toList.take k = " USING '".toList.drop (8 - k) →
      k = 0 ∨ k = 8 := by decide +kernel
  rw [List.prefix_iff_eq_take] at hbegin
  rcases hshift e.length hlen (hbegin.symm.trans (List.suffix_iff_eq_drop.1 hend)) with h | h
  · exact .inl (List.length_eq_zero_iff.1 h)
  · right
    rw [hbegin, h]
    decide +kernel

/-- Where the key of one conflict goes on in that of the other, the rest of it is read from the
value, if there is a rest. -/
theorem absorbs_of_longer_key {key key' v v' : String} {more : List Char}
    (hkey : key'.toList = key.toList ++ more)
    (h : " USING '".toList ++ v.toList = more ++ (" USING '".toList ++ v'.toList)) :
    key = key' ∧ v = v' ∨ Absorbs key (.value v) key' (.value v') := by
  rcases borderless_using.split_eq h with ⟨rfl, hv⟩ | ⟨between, rfl, hv⟩
  · rw [List.append_nil] at hkey
    exact .inl ⟨(String.toList_inj.1 hkey).symm, String.toList_inj.1 hv⟩
  · refine .inr ⟨String.ofList between, v', ?_, congrArg Resolution.value ?_, rfl⟩
    · apply String.toList_inj.1
      simp only [hkey, String.toList_append, String.toList_ofList, List.append_assoc]
    · apply String.toList_inj.1
      simp only [hv, String.toList_append, String.toList_ofList, List.append_assoc]

/-- The resolutions end alike if the commands do. -/
theorem mark_eq_of_settled_eq {key key' : String} {r r' : Resolution}
    (h : key ++ " USING " ++ r.write = key' ++ " USING " ++ r'.write) : r.mark = r'.mark := by
  have hlast := congrArg (fun s : String => s.toList.getLast?) h
  simp only [String.toList_append, List.getLast?_append, Resolution.getLast?_write,
    Option.some_or] at hlast
  exact Option.some.inj hlast

theorem toList_settled_value (key v : String) :
    (key ++ " USING " ++ (Resolution.value v).write).toList =
      key.toList ++ (" USING '".toList ++ v.toList) ++ ['\''] := by
  have hwrite : (Resolution.value v).write = "'" ++ v ++ "'" := rfl
  have hquote : " USING '" = " USING " ++ "'" := by decide +kernel
  rw [hwrite, hquote]
  simp only [String.toList_append, List.append_assoc]
  rfl

theorem settled_eq_of_absorbs {key key' : String} {r r' : Resolution}
    (h : Absorbs key r key' r') :
    key ++ " USING " ++ r.write = key' ++ " USING " ++ r'.write := by
  obtain ⟨between, value, rfl, rfl, rfl⟩ := h
  apply String.toList_inj.1
  rw [toList_settled_value, toList_settled_value]
  simp only [String.toList_append, List.append_assoc]

/-- What is read behind the table of a conflict: there is one reading or there are two. -/
theorem settled_eq_iff {key key' : String} {r r' : Resolution} :
    key ++ " USING " ++ r.write = key' ++ " USING " ++ r'.write ↔
      key = key' ∧ r = r' ∨ Absorbs key r key' r' ∨ Absorbs key' r' key r := by
  constructor
  · intro h
    rcases Resolution.eq_or_values_of_mark_eq (mark_eq_of_settled_eq h) with
      rfl | ⟨v, v', rfl, rfl⟩
    · rw [← String.toList_inj] at h
      simp only [String.toList_append, List.append_left_inj] at h
      exact .inl ⟨String.toList_inj.1 h, rfl⟩
    · rw [← String.toList_inj, toList_settled_value, toList_settled_value,
        List.append_left_inj] at h
      -- one of the keys goes on where the other ends
      rcases List.append_eq_append_iff.1 h with ⟨more, hkey, hmore⟩ | ⟨more, hkey, hmore⟩
      · rcases absorbs_of_longer_key hkey hmore with ⟨rfl, rfl⟩ | habsorbs
        · exact .inl ⟨rfl, rfl⟩
        · exact .inr (.inl habsorbs)
      · rcases absorbs_of_longer_key hkey hmore with ⟨rfl, rfl⟩ | habsorbs
        · exact .inl ⟨rfl, rfl⟩
        · exact .inr (.inr habsorbs)
  · rintro (⟨rfl, rfl⟩ | habsorbs | habsorbs)
    · rfl
    · exact settled_eq_of_absorbs habsorbs
    · exact (settled_eq_of_absorbs habsorbs).symm

theorem toList_text_resolve (c : MergeConflict) (r : Resolution) :
    (resolve c r).text.toList = "RESOLVE CONFLICT ".toList ++
      (c.database.toList ++ '.' :: (c.table.toList ++ '.' ::
        (c.key ++ " USING " ++ r.write).toList)) := by
  have htext : (resolve c r).text = "RESOLVE CONFLICT " ++
      (c.database ++ "." ++ c.table ++ "." ++ c.key) ++ " USING " ++ r.write := rfl
  rw [htext]
  simp only [String.toList_append, List.append_assoc]
  rfl

/-- Two conflicts whose names of databases and tables have no dots are settled by the same
command exactly if they are the same conflict settled in the same way, or one absorbs a part of
the other. -/
theorem text_resolve_eq_iff {c c' : MergeConflict} (r r' : Resolution)
    (h : '.' ∉ c.database.toList ∧ '.' ∉ c.table.toList)
    (h' : '.' ∉ c'.database.toList ∧ '.' ∉ c'.table.toList) :
    (resolve c r).text = (resolve c' r').text ↔
      c.database = c'.database ∧ c.table = c'.table ∧
        (c.key = c'.key ∧ r = r' ∨ Absorbs c.key r c'.key r' ∨ Absorbs c'.key r' c.key r) := by
  rw [← settled_eq_iff, ← String.toList_inj, toList_text_resolve, toList_text_resolve,
    List.append_right_inj]
  constructor
  · intro htext
    obtain ⟨hdatabase, hrest⟩ := Text.eq_of_append_cons_eq h.1 h'.1 htext
    obtain ⟨htable, hsettled⟩ := Text.eq_of_append_cons_eq h.2 h'.2 hrest
    exact ⟨String.toList_inj.1 hdatabase, String.toList_inj.1 htable, String.toList_inj.1 hsettled⟩
  · rintro ⟨hdatabase, htable, hsettled⟩
    rw [hdatabase, htable, hsettled]

/-- A value that goes on like the end of a key is absorbed by a longer key, and a resolution
that is no value is not. -/
theorem text_resolve_absorbed :
    (resolve ⟨"d", "t", "k", none, none⟩ (.value "x USING 'y")).text =
        (resolve ⟨"d", "t", "k USING 'x", none, none⟩ (.value "y")).text ∧
      (resolve ⟨"d", "t", "k", none, none⟩ .head).text ≠
        (resolve ⟨"d", "t", "k USING HEAD", none, none⟩ .head).text := by
  have hdotless : '.' ∉ "d".toList ∧ '.' ∉ "t".toList := by decide
  constructor
  · refine (text_resolve_eq_iff _ _ hdotless hdotless).2 ⟨rfl, rfl, .inr (.inl ?_)⟩
    exact ⟨"x", "y", rfl, rfl, rfl⟩
  · intro heq
    obtain ⟨-, -, ⟨hkey, -⟩ | ⟨_, _, -, hvalue, -⟩ | ⟨_, _, -, hvalue, -⟩⟩ :=
      (text_resolve_eq_iff _ _ hdotless hdotless).1 heq
    · exact absurd hkey (by decide)
    · cases hvalue
    · cases hvalue

/-- The command does not always tell which conflict it settles, and how, even where the names
of databases and tables are words without dots. -/
theorem text_resolve_not_injective :
    ¬∀ (c c' : MergeConflict) (r r' : Resolution),
      (∀ name ∈ [c.database, c.table, c'.database, c'.table],
        name ≠ "" ∧ ∀ a ∈ name.toList, a ≠ '.' ∧ Text.isBlank a = false) →
      (resolve c r).text = (resolve c' r').text →
      c.database = c'.database ∧ c.table = c'.table ∧ c.key = c'.key ∧ r = r' := by
  intro h
  have hsame := h ⟨"d", "t", "k", none, none⟩ ⟨"d", "t", "k USING 'x", none, none⟩
    (.value "x USING 'y") (.value "y") (by simp [Text.isBlank]) (by decide)
  exact absurd hsame.2.2.1 (by decide)

end Statement
end DbClient
