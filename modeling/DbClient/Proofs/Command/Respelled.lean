import Mathlib.Data.List.Forall2
import DbClient.Merge.State
import DbClient.Proofs.Command.Separators

/-!
# Spellings of a command

The letters of a command may be written in either case, any white space may stand between
its words, and white space may be put around it. None of this changes its words but for the
case of their letters, and so it changes neither the class of the command nor what the merge
state makes of it.
-/

namespace DbClient

namespace Text

variable {p : Char → Bool} {c d : Char} {cs ds : List Char}

/-! ## Texts in two spellings -/

/-- A character as it is, or a letter of ASCII in one of its cases. -/
inductive Recased (c : Char) : Char → Prop
  | same : Recased c c
  | lower : Recased c c.toLower
  | upper : Recased c c.toUpper

/-- A run of white space: nothing else, and not nothing. -/
def IsGap (cs : List Char) : Prop :=
  cs ≠ [] ∧ ∀ c ∈ cs, isBlank c = true

/-- Texts that differ in the case of letters, and in what their runs of white space are. -/
inductive Respaced : List Char → List Char → Prop
  | nil : Respaced [] []
  | char {c d : Char} {cs ds : List Char} (hcase : Recased c d) (hc : isBlank c = false)
    (hrest : Respaced cs ds) : Respaced (c :: cs) (d :: ds)
  | gap {cs ds : List Char} (a b : List Char) (ha : IsGap a) (hb : IsGap b)
    (hrest : Respaced cs ds) : Respaced (a ++ cs) (b ++ ds)

/-- A text in two spellings: they differ in the case of letters, in what the runs of white
space are, and in the white space at the two ends. -/
def Respelled (s t : String) : Prop :=
  ∃ lead body trail lead' body' trail',
    s.toList = lead ++ body ++ trail ∧ t.toList = lead' ++ body' ++ trail' ∧
      (∀ c ∈ lead ++ trail ++ lead' ++ trail', isBlank c = true) ∧ Respaced body body'

/-! ## Letters -/

theorem isUpper_iff : c.isUpper = true ↔ 65 ≤ c.toNat ∧ c.toNat ≤ 90 :=
  decide_eq_true_iff

theorem isLower_iff : c.isLower = true ↔ 97 ≤ c.toNat ∧ c.toNat ≤ 122 :=
  Bool.and_eq_true_iff.trans (and_congr decide_eq_true_iff decide_eq_true_iff)

theorem isAlpha_iff : c.isAlpha = true ↔
    65 ≤ c.toNat ∧ c.toNat ≤ 90 ∨ 97 ≤ c.toNat ∧ c.toNat ≤ 122 := by
  rw [← isUpper_iff, ← isLower_iff]
  exact Bool.or_eq_true_iff

theorem toNat_toLower (c : Char) :
    c.toLower.toNat = if 65 ≤ c.toNat ∧ c.toNat ≤ 90 then c.toNat + 32 else c.toNat := by
  have hupper : c.val ≥ 'A'.val ∧ c.val ≤ 'Z'.val ↔ 65 ≤ c.toNat ∧ c.toNat ≤ 90 := .rfl
  split
  · rename_i h
    have hhigh : c.val.toNat ≤ 90 := h.2
    have hchanged : c.toLower = _ := dif_pos (hupper.2 h)
    rw [hchanged]
    show (c.val + ('a'.val - 'A'.val)).toNat = c.val.toNat + 32
    simp only [UInt32.toNat_add, UInt32.toNat_sub, Char.reduceVal, UInt32.reduceToNat]
    omega
  · rename_i h
    have hsame : c.toLower = c := dif_neg (mt hupper.1 h)
    rw [hsame]

theorem toNat_toUpper (c : Char) :
    c.toUpper.toNat = if 97 ≤ c.toNat ∧ c.toNat ≤ 122 then c.toNat - 32 else c.toNat := by
  have hlower : 'a'.val ≤ c.val ∧ c.val ≤ 'z'.val ↔ 97 ≤ c.toNat ∧ c.toNat ≤ 122 := .rfl
  split
  · rename_i h
    have hlow : 97 ≤ c.val.toNat := h.1
    have hhigh : c.val.toNat ≤ 122 := h.2
    have hchanged : c.toUpper = _ := dif_pos (hlower.2 h)
    rw [hchanged]
    show (c.val + ('A'.val - 'a'.val)).toNat = c.val.toNat - 32
    simp only [UInt32.toNat_add, UInt32.toNat_sub, Char.reduceVal, UInt32.reduceToNat]
    omega
  · rename_i h
    have hsame : c.toUpper = c := dif_neg (mt hlower.1 h)
    rw [hsame]

/-- A character in either case is that character, or both are letters. -/
theorem Recased.eq_or_isAlpha (h : Recased c d) :
    c = d ∨ c.isAlpha = true ∧ d.isAlpha = true := by
  cases h with
  | same => exact .inl rfl
  | lower =>
    rw [← Char.toNat_inj, isAlpha_iff, isAlpha_iff, toNat_toLower]
    grind
  | upper =>
    rw [← Char.toNat_inj, isAlpha_iff, isAlpha_iff, toNat_toUpper]
    grind

theorem Recased.toUpper_eq (h : Recased c d) : c.toUpper = d.toUpper := by
  cases h with
  | same => rfl
  | lower =>
    rw [← Char.toNat_inj, toNat_toUpper, toNat_toUpper, toNat_toLower]
    grind
  | upper =>
    rw [← Char.toNat_inj, toNat_toUpper, toNat_toUpper, toNat_toUpper]
    grind

/-- What is said of no letter is said of a character in either case or in neither. -/
theorem Recased.eq_of_no_letter (hp : ∀ c : Char, c.isAlpha = true → p c = false)
    (h : Recased c d) : p c = p d := by
  rcases h.eq_or_isAlpha with rfl | ⟨hc, hd⟩
  · rfl
  · rw [hp c hc, hp d hd]

theorem isBlank_of_isAlpha (h : c.isAlpha = true) : isBlank c = false := by
  rw [isAlpha_iff] at h
  simp only [isBlank, Bool.or_eq_false_iff, Bool.and_eq_false_iff, decide_eq_false_iff_not,
    beq_eq_false_iff_ne, ne_eq]
  omega

theorem Recased.isBlank_eq (h : Recased c d) : isBlank c = isBlank d :=
  h.eq_of_no_letter fun _ => isBlank_of_isAlpha

theorem Recased.isSemicolon_eq (h : Recased c d) : (c == ';') = (d == ';') := by
  refine h.eq_of_no_letter (p := (· == ';')) fun e he => ?_
  rw [beq_eq_false_iff_ne]
  rintro rfl
  cases he

theorem map_eq_of_forall₂ {α β : Type} {R : α → α → Prop} {f : α → β}
    {l l' : List α} (h : List.Forall₂ R l l') (hf : ∀ a b, R a b → f a = f b) :
    l.map f = l'.map f := by
  induction h with
  | nil => rfl
  | cons hab _ ih => rw [List.map_cons, List.map_cons, hf _ _ hab, ih]

/-! ## The end of a text -/

namespace Respaced

theorem eq_nil_iff (h : Respaced cs ds) : cs = [] ↔ ds = [] := by
  cases h with
  | nil => rfl
  | char => simp
  | gap a b ha hb => simp [ha.1, hb.1]

/-- Dropping at the end does the same to two pieces in front of texts in two spellings, if all
characters of both are dropped, or none. -/
theorem dropTrailing_append {a b : List Char} {k : Bool} (ha : ∀ c ∈ a, p c = k)
    (hb : ∀ d ∈ b, p d = k)
    (hput : ∀ {cs ds : List Char}, Respaced cs ds → Respaced (a ++ cs) (b ++ ds))
    (hrest : Respaced (dropTrailing p cs) (dropTrailing p ds)) :
    Respaced (dropTrailing p (a ++ cs)) (dropTrailing p (b ++ ds)) := by
  rw [dropTrailing_append_eq, dropTrailing_append_eq]
  by_cases hnil : dropTrailing p cs = []
  · rw [if_pos hnil, if_pos (hrest.eq_nil_iff.1 hnil), dropTrailing_of_forall ha,
      dropTrailing_of_forall hb]
    cases k with
    | true => exact nil
    | false => simpa using hput nil
  · rw [if_neg hnil, if_neg (mt hrest.eq_nil_iff.2 hnil)]
    exact hput hrest

/-- Texts in two spellings stay so when both lose their end, if what is dropped does not depend
on the case of letters, and is all white space or none. -/
theorem dropTrailing {k : Bool} (h : Respaced cs ds)
    (hcase : ∀ c d, Recased c d → p c = p d) (hblank : ∀ c, isBlank c = true → p c = k) :
    Respaced (dropTrailing p cs) (dropTrailing p ds) := by
  induction h with
  | nil => exact nil
  | @char c d cs ds hcd hc hrest ih =>
    have hput : ∀ {cs ds : List Char}, Respaced cs ds → Respaced ([c] ++ cs) ([d] ++ ds) :=
      char hcd hc
    exact dropTrailing_append (k := p d) (by simp [hcase c d hcd]) (by simp) hput ih
  | gap a b ha hb hrest ih =>
    exact dropTrailing_append (fun c hc => hblank c (ha.2 c hc))
      (fun d hd => hblank d (hb.2 d hd)) (gap a b ha hb) ih

theorem withoutEnd (h : Respaced cs ds) : Respaced (withoutEnd cs) (withoutEnd ds) := by
  have hblanks := h.dropTrailing (p := isBlank) (fun _ _ => Recased.isBlank_eq) fun _ => id
  refine hblanks.dropTrailing (k := false) (fun _ _ => Recased.isSemicolon_eq) fun c hc => ?_
  rw [beq_eq_false_iff_ne]
  rintro rfl
  cases hc

/-! ## Words -/

/-- Texts in two spellings have the same words but for the case of letters. -/
theorem words (h : Respaced cs ds) :
    List.Forall₂ (List.Forall₂ Recased) (words cs) (words ds) := by
  induction h with
  | nil => exact .nil
  | gap a b ha hb hrest ih => rwa [words_blanks_append ha.2, words_blanks_append hb.2]
  | @char c d cs ds hcd hc hrest ih =>
    have hd : isBlank d = false := hcd.isBlank_eq ▸ hc
    -- whether the word goes on is told by what stands next
    cases hrest with
    | nil =>
      rw [words_singleton hc, words_singleton hd]
      exact .cons (.cons hcd .nil) .nil
    | gap a b ha hb hrest =>
      obtain ⟨x, a, rfl⟩ := List.exists_cons_of_ne_nil ha.1
      obtain ⟨y, b, rfl⟩ := List.exists_cons_of_ne_nil hb.1
      rw [List.cons_append, List.cons_append] at ih ⊢
      rw [words_cons_blank hc (ha.2 x List.mem_cons_self),
        words_cons_blank hd (hb.2 y List.mem_cons_self)]
      exact .cons (.cons hcd .nil) ih
    | char hcd' hc' hrest =>
      have hd' := hcd'.isBlank_eq ▸ hc'
      obtain ⟨w, ws, hw⟩ := List.exists_cons_of_ne_nil (words_cons_ne_nil hc' _)
      obtain ⟨v, vs, hv⟩ := List.exists_cons_of_ne_nil (words_cons_ne_nil hd' _)
      rw [words_cons_part hc hc' hw, words_cons_part hd hd' hv]
      rw [hw, hv] at ih
      cases ih with
      | cons hfirst hothers => exact .cons (.cons hcd hfirst) hothers

end Respaced

/-- White space at the two ends of a text plays no part in its words. -/
theorem words_withoutEnd_of_blanks {lead trail : List Char} (body : List Char)
    (hlead : ∀ c ∈ lead, isBlank c = true) (htrail : ∀ c ∈ trail, isBlank c = true) :
    words (withoutEnd (lead ++ body ++ trail)) = words (withoutEnd body) := by
  have hend : withoutEnd (body ++ trail) = withoutEnd body := by
    rw [withoutEnd, dropTrailing_append_eq, dropTrailing_of_forall htrail]
    rfl
  rw [List.append_assoc, ← words_withoutEnd_dropWhile, List.dropWhile_append_of_pos hlead,
    words_withoutEnd_dropWhile, hend]

/-- A text in two spellings has the same words but for the case of letters. -/
theorem Respelled.words_withoutEnd {s t : String} (h : Respelled s t) :
    List.Forall₂ (List.Forall₂ Recased) (words (withoutEnd s.toList))
      (words (withoutEnd t.toList)) := by
  obtain ⟨lead, body, trail, lead', body', trail', hs, ht, hblank, hbody⟩ := h
  simp only [List.forall_mem_append] at hblank
  obtain ⟨⟨⟨hlead, htrail⟩, hlead'⟩, htrail'⟩ := hblank
  rw [hs, ht, words_withoutEnd_of_blanks body hlead htrail,
    words_withoutEnd_of_blanks body' hlead' htrail']
  exact hbody.withoutEnd.words

end Text

/-- The case of its letters is nothing to a keyword. -/
theorem Keyword.ofWord_eq_of_recased {w v : List Char} (h : List.Forall₂ Text.Recased w v) :
    ofWord w = ofWord v := by
  have hupper : w.map Char.toUpper = v.map Char.toUpper :=
    Text.map_eq_of_forall₂ h fun _ _ => Text.Recased.toUpper_eq
  rw [ofWord, hupper, ofWord]

namespace CommandClass

open Text

theorem keywordsOf_of_respelled {s t : String} (h : Respelled s t) :
    keywordsOf t = keywordsOf s := by
  rw [keywordsOf, keywordsOf, wordsOf_eq_words_withoutEnd, wordsOf_eq_words_withoutEnd]
  exact (map_eq_of_forall₂ h.words_withoutEnd fun _ _ => Keyword.ofWord_eq_of_recased).symm

/-- A command in another spelling is of the same class. It is refused where the command itself
is, under its own text, and a reply to it does the same to the merge state. -/
theorem of_respelled {s t : String} (h : Respelled s t) :
    of t = of s ∧
      (∀ m : MergeState,
        m.check (of s) s = .ok () ∧ m.check (of t) t = .ok () ∨
          m.check (of s) s = .error (.mergePending s) ∧
            m.check (of t) t = .error (.mergePending t)) ∧
      ∀ (m : MergeState) (reply : Reply), m.after (of t) reply = m.after (of s) reply := by
  have hclass : of t = of s := by rw [of_eq, of_eq, keywordsOf_of_respelled h]
  refine ⟨hclass, fun m => ?_, fun m reply => by rw [hclass]⟩
  rw [hclass, MergeState.check, MergeState.check]
  split
  · exact .inr ⟨rfl, rfl⟩
  · exact .inl ⟨rfl, rfl⟩

/-- A merge in small letters, with other white space between its words and around them. -/
theorem of_respelled_merge :
    Respelled "MERGE b;" "\tmerge\u2003\nb;\u00a0" ∧ of "\tmerge\u2003\nb;\u00a0" = .merge := by
  have hspace : IsGap [' '] := ⟨by simp, List.all_eq_true.1 rfl⟩
  have hspaces : IsGap ['\u2003', '\n'] := ⟨by simp, List.all_eq_true.1 rfl⟩
  have hname : Respaced ['b', ';'] ['b', ';'] := .char .same rfl (.char .same rfl .nil)
  have hbody : Respaced "MERGE b;".toList "merge\u2003\nb;".toList :=
    .char .lower rfl <| .char .lower rfl <| .char .lower rfl <| .char .lower rfl <|
      .char .lower rfl <| .gap _ _ hspace hspaces hname
  have hspelled : Respelled "MERGE b;" "\tmerge\u2003\nb;\u00a0" :=
    ⟨[], _, [], ['\t'], _, ['\u00a0'], rfl, rfl, List.all_eq_true.1 rfl, hbody⟩
  refine ⟨hspelled, ?_⟩
  rw [(of_respelled hspelled).1]
  decide +kernel

end CommandClass
end DbClient
