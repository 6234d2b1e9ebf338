import Mathlib.Data.List.DropRight
import DbClient.Text.Blank

/-!
# Words

What is dropped at the end of a text, and the maximal runs of characters that are not white
space, under concatenation.
-/

namespace DbClient.Text

variable {p : Char → Bool}

/-! ## Dropping at the end -/

/-- What is dropped at the end never reaches past a character that stays. -/
theorem dropTrailing_append (init rest : List Char) {last : Char} (h : p last = false) :
    dropTrailing p (init ++ last :: rest) = init ++ last :: dropTrailing p rest := by
  have hdrop : ∀ tail : List Char,
      (tail ++ last :: init.reverse).dropWhile p = tail.dropWhile p ++ last :: init.reverse := by
    intro tail
    induction tail with
    | nil => simp [h]
    | cons c tail ih =>
      cases hc : p c
      · simp [hc]
      · simp [hc, ih]
  simp [dropTrailing, List.reverse_append, hdrop]

/-- What is left after dropping at the end begins as before, if anything is left. -/
theorem dropTrailing_cons (c : Char) (rest : List Char) :
    dropTrailing p (c :: rest) = [] ∨ ∃ rest', dropTrailing p (c :: rest) = c :: rest' := by
  cases hc : p c
  · exact .inr ⟨dropTrailing p rest, dropTrailing_append [] rest hc⟩
  · have key : ∀ l : List Char, (l ++ [c]).dropWhile p = [] ∨
        ∃ l', (l ++ [c]).dropWhile p = l' ++ [c] := by
      intro l
      induction l with
      | nil => simp [hc]
      | cons d l ih =>
        cases hd : p d
        · exact .inr ⟨d :: l, by simp [hd]⟩
        · simpa [hd] using ih
    rcases key rest.reverse with h | ⟨l', h⟩
    · exact .inl (by simp [dropTrailing, h])
    · exact .inr ⟨l'.reverse, by simp [dropTrailing, h]⟩

/-- Dropping at the end reaches the text in front only where nothing behind it stays. -/
theorem dropTrailing_append_eq (cs ds : List Char) :
    dropTrailing p (cs ++ ds) =
      if dropTrailing p ds = [] then dropTrailing p cs else cs ++ dropTrailing p ds := by
  simp only [dropTrailing, List.reverse_append, List.dropWhile_append, List.isEmpty_iff,
    List.reverse_eq_nil_iff]
  split <;> simp

/-- Where all characters stay, or none, the whole text does. -/
theorem dropTrailing_of_forall {k : Bool} {cs : List Char} (h : ∀ c ∈ cs, p c = k) :
    dropTrailing p cs = if k then [] else cs := by
  cases k with
  | true => exact List.rdropWhile_eq_nil_iff.2 h
  | false =>
    refine List.rdropWhile_eq_self_iff.2 fun hne hlast => ?_
    rw [h _ (List.getLast_mem hne)] at hlast
    cases hlast

theorem dropTrailing_isPrefix (p : Char → Bool) (cs : List Char) : dropTrailing p cs <+: cs :=
  List.rdropWhile_prefix p cs

/-- What is left is nothing, or it ends with a character that stays. -/
theorem dropTrailing_cases (p : Char → Bool) (cs : List Char) :
    dropTrailing p cs = [] ∨
      ∃ init last, dropTrailing p cs = init ++ [last] ∧ p last = false := by
  by_cases h : dropTrailing p cs = []
  · exact .inl h
  · refine .inr ⟨_, _, (List.dropLast_append_getLast h).symm, ?_⟩
    exact Bool.eq_false_iff.2 (List.rdropWhile_last_not p cs h)

/-- A longer text loses only what stands behind the part that the shorter one keeps. -/
theorem dropTrailing_mono {cs ds : List Char} (h : cs <+: ds) :
    dropTrailing p cs <+: dropTrailing p ds := by
  rcases dropTrailing_cases p cs with hnil | ⟨init, last, hkept, hlast⟩
  · rw [hnil]
    exact List.nil_prefix
  · obtain ⟨dropped, hdropped⟩ := dropTrailing_isPrefix p cs
    obtain ⟨more, rfl⟩ := h
    have hds : cs ++ more = init ++ last :: (dropped ++ more) := by
      rw [← hdropped, hkept]
      simp
    rw [hds, dropTrailing_append init _ hlast, hkept]
    exact ⟨dropTrailing p (dropped ++ more), by simp⟩

/-! ## Words -/

/-- Nothing, or text that begins with white space: what may follow a whole word. -/
def EndsWord (rest : List Char) : Prop :=
  rest = [] ∨ ∃ c rest', rest = c :: rest' ∧ isBlank c = true

theorem EndsWord.dropTrailing {rest : List Char} (h : EndsWord rest) :
    EndsWord (dropTrailing p rest) := by
  rcases h with rfl | ⟨c, rest', rfl, hc⟩
  · exact .inl rfl
  · rcases dropTrailing_cons (p := p) c rest' with h | ⟨rest'', h⟩
    · exact .inl h
    · exact .inr ⟨c, rest'', h, hc⟩

theorem words_nil : words [] = [] := rfl

theorem words_blank_cons {c : Char} (h : isBlank c = true) (cs : List Char) :
    words (c :: cs) = words cs := by
  rw [words.eq_def]
  exact if_pos h

section Cons

variable {c d : Char} (hc : isBlank c = false)

include hc

/-- A character that is not white space begins a word, or stands before the rest of one. -/
theorem words_cons (cs : List Char) :
    words (c :: cs) =
      match cs with
      | [] => [[c]]
      | d :: _ =>
        if isBlank d then [c] :: words cs
        else match words cs with
          | [] => [[c]]
          | w :: ws => (c :: w) :: ws := by
  rw [words.eq_def]
  exact if_neg (by simp [hc])

theorem words_cons_ne_nil (cs : List Char) : words (c :: cs) ≠ [] := by
  rw [words_cons hc]
  repeat' split
  all_goals simp

theorem words_singleton : words [c] = [[c]] :=
  words_cons hc []

/-- A character before white space is the end of its word. -/
theorem words_cons_blank (hd : isBlank d = true) (cs : List Char) :
    words (c :: d :: cs) = [c] :: words (d :: cs) :=
  (words_cons hc (d :: cs)).trans (if_pos hd)

/-- A character before another belongs to the same word. -/
theorem words_cons_part (hd : isBlank d = false) {cs w : List Char} {ws : List (List Char)}
    (h : words (d :: cs) = w :: ws) : words (c :: d :: cs) = (c :: w) :: ws := by
  rw [words_cons hc]
  dsimp only
  rw [if_neg (by simp [hd]), h]

end Cons

/-- Words do not run into text that begins with white space. -/
theorem words_append (cs : List Char) {rest : List Char} (h : EndsWord rest) :
    words (cs ++ rest) = words cs ++ words rest := by
  induction cs with
  | nil => rfl
  | cons c cs ih =>
    cases hc : isBlank c with
    | true => rw [List.cons_append, words_blank_cons hc, words_blank_cons hc, ih]
    | false =>
      cases cs with
      | nil =>
        rcases h with rfl | ⟨d, rest', rfl, hd⟩
        · rw [List.append_nil]
          exact (List.append_nil _).symm
        · rw [List.singleton_append, words_cons_blank hc hd, words_singleton hc]
          rfl
      | cons d cs =>
        rw [List.cons_append] at ih ⊢
        cases hd : isBlank d with
        | true =>
          rw [List.cons_append, words_cons_blank hc hd, words_cons_blank hc hd, ih]
          rfl
        | false =>
          -- the word goes on, so there is one to put the character in front of
          obtain ⟨w, ws, hw⟩ := List.exists_cons_of_ne_nil (words_cons_ne_nil hd cs)
          rw [hw] at ih
          rw [List.cons_append, words_cons_part hc hd ih, words_cons_part hc hd hw]
          rfl

/-- White space in front of words is nothing to them. -/
theorem words_blanks_append {cs : List Char} (h : ∀ c ∈ cs, isBlank c = true) (rest : List Char) :
    words (cs ++ rest) = words rest := by
  induction cs with
  | nil => rfl
  | cons c cs ih =>
    obtain ⟨hc, hcs⟩ := List.forall_mem_cons.1 h
    rw [List.cons_append, words_blank_cons hc, ih hcs]

theorem words_blanks {cs : List Char} (h : ∀ c ∈ cs, isBlank c = true) : words cs = [] := by
  rw [← cs.append_nil, words_blanks_append h, words_nil]

/-- Text without white space is one word. -/
theorem words_word {w : List Char} (hne : w ≠ []) (h : ∀ c ∈ w, isBlank c = false) :
    words w = [w] := by
  induction w with
  | nil => exact absurd rfl hne
  | cons c w ih =>
    obtain ⟨hc, hw⟩ := List.forall_mem_cons.1 h
    cases w with
    | nil => exact words_singleton hc
    | cons d w =>
      have hd := hw d List.mem_cons_self
      exact words_cons_part hc hd (ih (List.cons_ne_nil d w) hw)

/-- A word that is put between others is one of the words. -/
theorem words_spliced (before : List Char) {w rest : List Char} (hne : w ≠ [])
    (h : ∀ c ∈ w, isBlank c = false) (hrest : EndsWord rest) :
    words (before ++ ' ' :: (w ++ rest)) = words before ++ w :: words rest := by
  rw [words_append before (.inr ⟨' ', _, rfl, rfl⟩), words_blank_cons rfl, words_append w hrest,
    words_word hne h]
  rfl

/-- A word that follows white space, or nothing, is a word of its own. -/
theorem words_append_word {init w : List Char} (hinit : dropTrailing (!isBlank ·) init = init)
    (hne : w ≠ []) (h : ∀ c ∈ w, isBlank c = false) : words (init ++ w) = words init ++ [w] := by
  rcases dropTrailing_cases (!isBlank ·) init with hnil | ⟨before, blank, hkept, hblank⟩
  · rw [hinit] at hnil
    rw [hnil, List.nil_append, words_word hne h]
    rfl
  · rw [hinit] at hkept
    subst hkept
    have hb : isBlank blank = true := by simpa using hblank
    have ends : ∀ rest : List Char, EndsWord (blank :: rest) := fun rest => .inr ⟨_, _, rfl, hb⟩
    rw [List.append_assoc, List.singleton_append, words_append before (ends w),
      words_append before (ends []), words_blank_cons hb, words_blank_cons hb, words_word hne h,
      words_nil, List.append_nil]

/-- What is put behind a text that ends with a word becomes a part of that word. -/
theorem words_append_part {core part : List Char} (hcore : dropTrailing isBlank core = core)
    (hne : part ≠ []) (h : ∀ c ∈ part, isBlank c = false) :
    ∃ w, words (core ++ part) = (words core).dropLast ++ [w ++ part] := by
  -- the last word of the text, and what stands before it
  have hsplit : dropTrailing (!isBlank ·) core ++ core.rtakeWhile (!isBlank ·) = core :=
    List.rdropWhile_append_rtakeWhile
  have hidem : dropTrailing (!isBlank ·) (dropTrailing (!isBlank ·) core) =
      dropTrailing (!isBlank ·) core := List.rdropWhile_idempotent _ _
  have hword : ∀ c ∈ core.rtakeWhile (!isBlank ·), isBlank c = false := by
    intro c hc
    simpa using List.mem_rtakeWhile_imp hc
  generalize dropTrailing (!isBlank ·) core = init at hsplit hidem
  generalize core.rtakeWhile (!isBlank ·) = w at hsplit hword
  have hwhole : ∀ c ∈ w ++ part, isBlank c = false := List.forall_mem_append.2 ⟨hword, h⟩
  refine ⟨w, ?_⟩
  rw [← hsplit, List.append_assoc, words_append_word hidem (by simp [hne]) hwhole]
  by_cases hw : w = []
  · -- without a last word there is no text at all, for the text does not end with white space
    subst hw
    rw [List.append_nil] at hsplit
    subst hsplit
    have hnil : init = [] := by
      by_contra hinit
      have hblank := List.rdropWhile_eq_self_iff.1 hidem hinit
      have hstays := List.rdropWhile_eq_self_iff.1 hcore hinit
      simp_all
    rw [hnil]
    rfl
  · rw [words_append_word hidem hw hword, List.dropLast_concat]

/-- The words of a text hold what is not white space, in order. -/
theorem flatten_words (cs : List Char) : (words cs).flatten = cs.filter (!isBlank ·) := by
  fun_induction words cs with
  | case1 => rfl
  | case2 c cs hc ih => rw [ih, List.filter_cons_of_neg (by simp [hc])]
  | case3 c hc => simp [hc]
  | case4 c hc d cs hd ih =>
    rw [List.flatten_cons, ih]
    simp [hc]
  | case5 c hc d cs hd hnone ih => exact absurd hnone (words_cons_ne_nil (by simpa using hd) cs)
  | case6 c hc d cs hd w ws hsome ih =>
    rw [hsome] at ih ⊢
    rw [List.filter_cons_of_pos (by simp [hc]), ← ih]
    rfl

theorem nil_notMem_words (cs : List Char) : [] ∉ words cs := by
  fun_induction words cs with
  | case1 => simp
  | case2 c cs hc ih => exact ih
  | case3 c hc => simp
  | case4 c hc d cs hd ih => simpa using ih
  | case5 c hc d cs hd hnone ih => exact absurd hnone (words_cons_ne_nil (by simpa using hd) cs)
  | case6 c hc d cs hd w ws hsome ih =>
    rw [hsome] at ih ⊢
    simp only [List.mem_cons, not_or] at ih ⊢
    exact ⟨by simp, ih.2⟩

/-! ## Trimming -/

/-- Whether a text is another without the white space at its two ends. -/
def Trims (cs kept : List Char) : Prop :=
  ∃ before after, cs = before ++ (kept ++ after) ∧ (∀ c ∈ before, isBlank c = true) ∧
    (∀ c ∈ after, isBlank c = true) ∧ (∀ c ∈ kept.head?, isBlank c = false) ∧
      ∀ c ∈ kept.getLast?, isBlank c = false

theorem trims_trim (cs : List Char) : Trims cs (trim cs) := by
  have hsplit : trim cs ++ (cs.dropWhile isBlank).rtakeWhile isBlank = cs.dropWhile isBlank :=
    List.rdropWhile_append_rtakeWhile
  refine ⟨cs.takeWhile isBlank, (cs.dropWhile isBlank).rtakeWhile isBlank, ?_, ?_, ?_, ?_, ?_⟩
  · rw [hsplit, List.takeWhile_append_dropWhile]
  · exact fun c hc => List.mem_takeWhile_imp hc
  · exact fun c hc => List.mem_rtakeWhile_imp hc
  · intro c hc
    obtain ⟨kept, hkept⟩ : ∃ kept, trim cs = c :: kept := List.head?_eq_some_iff.1 hc
    have hhead := List.head?_dropWhile_not isBlank cs
    rw [← hsplit, hkept] at hhead
    exact hhead
  · intro c hc
    obtain ⟨hne, rfl⟩ := List.mem_getLast?_eq_getLast hc
    exact Bool.eq_false_iff.2 (List.rdropWhile_last_not _ _ hne)

/-- Trimming is the only way to leave the white space at the ends out, and no more. -/
theorem trims_iff {cs kept : List Char} : Trims cs kept ↔ kept = trim cs := by
  constructor
  · rintro ⟨before, after, rfl, hbefore, hafter, hhead, hlast⟩
    rw [trim, List.dropWhile_append_of_pos hbefore]
    have hnothing : dropTrailing isBlank after = [] := dropTrailing_of_forall hafter
    cases kept with
    | nil =>
      rw [List.nil_append, List.dropWhile_eq_nil_iff.2 hafter]
      rfl
    | cons c kept =>
      have hc : ¬isBlank c = true := by simp [hhead c rfl]
      rw [List.cons_append, List.dropWhile_cons_of_neg hc, ← List.cons_append,
        dropTrailing_append_eq, if_pos hnothing]
      refine (List.rdropWhile_eq_self_iff.2 fun hne hblank => ?_).symm
      rw [hlast _ (List.getLast?_eq_some_getLast hne)] at hblank
      cases hblank
  · rintro rfl
    exact trims_trim cs

end DbClient.Text
