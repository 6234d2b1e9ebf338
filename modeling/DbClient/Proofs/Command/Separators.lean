import DbClient.Command.Class
import DbClient.Proofs.Text.Words

/-!
# Separators at the end of a command

White space and semicolons at the end of a command are dropped before its class is told:
first white space, then semicolons, each once. Where the two alternate, separators stay, and
a semicolon among them counts as a word or as a part of the last word.
-/

namespace DbClient

namespace Text

/-- White space and semicolons. -/
def isSeparator (c : Char) : Bool :=
  isBlank c || c == ';'

/-- A text without the white space at its end, and then without the semicolons there. -/
def withoutEnd (cs : List Char) : List Char :=
  dropTrailing (· == ';') (dropTrailing isBlank cs)

theorem withoutEnd_mono {cs ds : List Char} (h : cs <+: ds) : withoutEnd cs <+: withoutEnd ds :=
  dropTrailing_mono (dropTrailing_mono h)

theorem withoutEnd_isPrefix (cs : List Char) : withoutEnd cs <+: cs :=
  (dropTrailing_isPrefix _ _).trans (dropTrailing_isPrefix _ _)

/-- Text that ends with no separator is kept, and what follows it loses its end. -/
theorem withoutEnd_append {core : List Char} (h : dropTrailing isSeparator core = core)
    (cs : List Char) : withoutEnd (core ++ cs) = core ++ withoutEnd cs := by
  rcases dropTrailing_cases isSeparator core with hnil | ⟨init, last, hkept, hlast⟩
  · rw [← h, hnil, List.nil_append, List.nil_append]
  · rw [h] at hkept
    subst hkept
    rw [isSeparator, Bool.or_eq_false_iff] at hlast
    have hsemis : dropTrailing (· == ';') (init ++ last :: dropTrailing isBlank cs) =
        init ++ last :: dropTrailing (· == ';') (dropTrailing isBlank cs) :=
      dropTrailing_append init _ hlast.2
    simp only [withoutEnd, List.append_assoc, List.singleton_append]
    rw [dropTrailing_append init cs hlast.1, hsemis]

/-- A text that ends with a word keeps its end. -/
theorem withoutEnd_append_word (init : List Char) {w : List Char} (hne : w ≠ [])
    (h : ∀ c ∈ w, isSeparator c = false) : withoutEnd (init ++ w) = init ++ w := by
  have hw : dropTrailing isSeparator w = w := dropTrailing_of_forall h
  have hkept : dropTrailing isSeparator (init ++ w) = init ++ w := by
    rw [dropTrailing_append_eq, hw, if_neg hne]
  have hend := withoutEnd_append hkept []
  rwa [List.append_nil, show withoutEnd [] = [] from rfl, List.append_nil] at hend

/-- White space in front of a text plays no part when its end is dropped. -/
theorem words_withoutEnd_dropWhile (cs : List Char) :
    words (withoutEnd (cs.dropWhile isBlank)) = words (withoutEnd cs) := by
  induction cs with
  | nil => rfl
  | cons c cs ih =>
    cases hc : isBlank c with
    | false => rw [List.dropWhile_cons_of_neg (by simp [hc])]
    | true =>
      rw [List.dropWhile_cons_of_pos hc, ih]
      rcases dropTrailing_cases isBlank cs with hnil | ⟨init, last, hkept, hlast⟩
      · have hall : dropTrailing isBlank (c :: cs) = [] :=
          List.rdropWhile_eq_nil_iff.2
            (List.forall_mem_cons.2 ⟨hc, List.rdropWhile_eq_nil_iff.1 hnil⟩)
        rw [withoutEnd, withoutEnd, hnil, hall]
      · obtain ⟨dropped, hdropped⟩ := dropTrailing_isPrefix isBlank cs
        rw [hkept, List.append_assoc, List.singleton_append] at hdropped
        have hblanks : dropTrailing isBlank (c :: cs) = c :: dropTrailing isBlank cs := by
          rw [← hdropped, ← List.cons_append, dropTrailing_append (c :: init) _ hlast,
            dropTrailing_append init _ hlast, List.cons_append]
        have hsemicolon : (c == ';') = false := by
          rw [beq_eq_false_iff_ne]
          rintro rfl
          cases hc
        have hend : withoutEnd (c :: cs) = c :: withoutEnd cs := by
          rw [withoutEnd, hblanks]
          exact dropTrailing_append [] _ hsemicolon
        rw [hend, words_blank_cons hc]

end Text

/-- No keyword has a semicolon. -/
theorem Keyword.ofWord_of_semicolon {w : List Char} (h : ';' ∈ w) : ofWord w = .other := by
  have hspellings : ∀ entry ∈ spellings, ';' ∉ entry.1.toList := by decide
  have hnone : spellings.lookup (String.ofList (w.map Char.toUpper)) = none := by
    rw [List.lookup_eq_none_iff]
    intro entry hentry
    rw [bne_iff_ne]
    rintro heq
    apply hspellings entry hentry
    rw [← heq, String.toList_ofList]
    exact List.mem_map.2 ⟨';', h, by decide⟩
  rw [ofWord, hnone]
  rfl

namespace CommandClass

open Text

/-- What a command is without the white space and the semicolons at its end. -/
def coreOf (command : String) : List Char :=
  command.toList.rdropWhile isSeparator

/-- What stays of the white space and the semicolons at the end of a command. -/
def remnant (command : String) : List Char :=
  withoutEnd (command.toList.rtakeWhile isSeparator)

/-- The keywords that a command is told by. -/
def keywordsOf (command : String) : List Keyword :=
  (wordsOf command).map Keyword.ofWord

theorem of_eq (command : String) : of command = ofKeywords (keywordsOf command) := rfl

/-- The words of a command are those of its text without its end. -/
theorem wordsOf_eq_words_withoutEnd (command : String) :
    wordsOf command = words (withoutEnd command.toList) :=
  words_withoutEnd_dropWhile command.toList

theorem wordsOf_eq (command : String) :
    wordsOf command = words (coreOf command ++ remnant command) := by
  have hcore : dropTrailing isSeparator (coreOf command) = coreOf command :=
    List.rdropWhile_idempotent _ _
  have hsplit : coreOf command ++ command.toList.rtakeWhile isSeparator = command.toList :=
    List.rdropWhile_append_rtakeWhile
  rw [wordsOf_eq_words_withoutEnd, remnant, ← withoutEnd_append hcore, hsplit]

/-! ## Keywords behind a command -/

theorem ofKeywords_merge {ks : List Keyword}
    (h : ∀ name, ks ≠ [name, .with_, .manual, .resolution]) :
    ofKeywords (.merge :: ks) = .merge := by
  unfold ofKeywords
  split <;> simp_all

/-- More words that are no keywords make no difference, unless the merge was a manual one. -/
theorem ofKeywords_append_others {ks : List Keyword} (h : ofKeywords ks ≠ .manualMerge) (n : Nat) :
    ofKeywords (ks ++ List.replicate n .other) = ofKeywords ks := by
  rcases n with _ | n
  · rw [List.replicate_zero, List.append_nil]
  cases ks with
  | nil => rfl
  | cons first rest =>
    cases first with
    | merge =>
      have hbefore : ∀ name, rest ≠ [name, .with_, .manual, .resolution] := by
        rintro name rfl
        exact h rfl
      have hafter : ∀ name,
          rest ++ List.replicate (n + 1) .other ≠ [name, .with_, .manual, .resolution] := by
        intro name hmanual
        have hlast := congrArg List.getLast? hmanual
        rw [List.replicate_succ', ← List.append_assoc, List.getLast?_concat] at hlast
        cases hlast
      rw [List.cons_append, ofKeywords_merge hafter, ofKeywords_merge hbefore]
    | _ =>
      -- every other class is told by the first two words
      rcases rest with _ | ⟨second, rest⟩
      · rfl
      · cases second <;> rfl

theorem eq_of_ofKeywords_eq_manualMerge {ks : List Keyword} (h : ofKeywords ks = .manualMerge) :
    ∃ name, ks = [.merge, name, .with_, .manual, .resolution] := by
  unfold ofKeywords at h
  split at h <;> cases h
  exact ⟨_, rfl⟩

/-- The keywords of a command whose core has the keywords `ks`, and at whose end the separators
`rest` stay. -/
inductive Ended (ks : List Keyword) (rest : List Char) : List Keyword → Prop
  | clean (h : ';' ∉ rest) : Ended ks rest ks
  | apart (n : Nat) (h : ';' ∈ rest) (hfirst : rest.head? ≠ some ';') :
    Ended ks rest (ks ++ List.replicate (n + 1) .other)
  | attached (n : Nat) (hfirst : rest.head? = some ';') :
    Ended ks rest (ks.dropLast ++ List.replicate (n + 1) .other)

/-- Words of separators are no keywords. -/
theorem keywords_separators {cs : List Char} (h : ∀ c ∈ cs, isSeparator c = true) :
    (words cs).map Keyword.ofWord = List.replicate (words cs).length .other := by
  rw [List.eq_replicate_iff, List.length_map]
  refine ⟨rfl, ?_⟩
  intro k hk
  obtain ⟨w, hw, rfl⟩ := List.mem_map.1 hk
  apply Keyword.ofWord_of_semicolon
  obtain ⟨c, w, rfl⟩ := List.exists_cons_of_ne_nil (ne_of_mem_of_not_mem hw (nil_notMem_words cs))
  have hc : c ∈ cs.filter (!isBlank ·) := by
    rw [← flatten_words]
    exact List.mem_flatten.2 ⟨_, hw, List.mem_cons_self⟩
  obtain ⟨hmem, hblank⟩ := List.mem_filter.1 hc
  have hsep := h c hmem
  have hsemicolon : c = ';' := by simp_all [isSeparator]
  exact hsemicolon ▸ List.mem_cons_self

theorem words_separators_ne_nil {cs : List Char} (h : ';' ∈ cs) : words cs ≠ [] := by
  intro hnil
  have hc : ';' ∈ cs.filter (!isBlank ·) := List.mem_filter.2 ⟨h, by decide⟩
  rw [← flatten_words, hnil] at hc
  cases hc

theorem endsWord_of_separators {cs : List Char} (h : ∀ c ∈ cs, isSeparator c = true)
    (hfirst : cs.head? ≠ some ';') : EndsWord cs := by
  rcases cs with _ | ⟨c, cs⟩
  · exact .inl rfl
  · have hc := h c List.mem_cons_self
    have hne : c ≠ ';' := fun heq => hfirst (congrArg some heq)
    exact .inr ⟨c, cs, rfl, by simpa [isSeparator, hne] using hc⟩

/-- Separators that do not touch the last word add words of their own, if any. -/
theorem ended_of_endsWord {core rest : List Char} (hsep : ∀ c ∈ rest, isSeparator c = true)
    (hfirst : rest.head? ≠ some ';') :
    Ended ((words core).map Keyword.ofWord) rest ((words (core ++ rest)).map Keyword.ofWord) := by
  rw [words_append core (endsWord_of_separators hsep hfirst), List.map_append,
    keywords_separators hsep]
  by_cases hmem : ';' ∈ rest
  · obtain ⟨n, hn⟩ := Nat.exists_eq_succ_of_ne_zero
      (List.length_pos_iff.2 (words_separators_ne_nil hmem)).ne'
    rw [hn]
    exact .apart n hmem hfirst
  · have hblank : ∀ c ∈ rest, isBlank c = true := by
      intro c hc
      have hne : c ≠ ';' := fun heq => hmem (heq ▸ hc)
      simpa [isSeparator, hne] using hsep c hc
    rw [words_blanks hblank, List.length_nil, List.replicate_zero, List.append_nil]
    exact .clean hmem

/-- Separators that begin with a semicolon change the last word, and may add words. -/
theorem ended_of_semicolon {core rest : List Char}
    (hcore : dropTrailing isSeparator core = core) (hsep : ∀ c ∈ rest, isSeparator c = true)
    (hfirst : rest.head? = some ';') :
    Ended ((words core).map Keyword.ofWord) rest ((words (core ++ rest)).map Keyword.ofWord) := by
  obtain ⟨more, rfl⟩ := List.head?_eq_some_iff.1 hfirst
  have hsplit : ';' :: more = ';' :: more.takeWhile (· == ';') ++ more.dropWhile (· == ';') := by
    rw [List.cons_append, List.takeWhile_append_dropWhile]
  have hpart : ∀ c ∈ ';' :: more.takeWhile (· == ';'), isBlank c = false := by
    refine List.forall_mem_cons.2 ⟨rfl, fun c hc => ?_⟩
    have hsemicolon := List.mem_takeWhile_imp hc
    rw [eq_of_beq hsemicolon]
    rfl
  have hmore : ∀ c ∈ more.dropWhile (· == ';'), isSeparator c = true := fun c hc =>
    hsep c (List.mem_cons_of_mem _ ((List.dropWhile_suffix _).subset hc))
  have hapart : (more.dropWhile (· == ';')).head? ≠ some ';' := by
    intro hhead
    have := List.head?_dropWhile_not (· == ';') more
    simp [hhead] at this
  have hend : dropTrailing isBlank core = core := by
    refine List.rdropWhile_eq_self_iff.2 fun hne hblank => ?_
    apply List.rdropWhile_eq_self_iff.1 hcore hne
    rw [isSeparator, hblank, Bool.true_or]
  obtain ⟨w, hw⟩ := words_append_part hend (by simp) hpart
  have hother : Keyword.ofWord (w ++ ';' :: more.takeWhile (· == ';')) = .other :=
    Keyword.ofWord_of_semicolon (by simp)
  have hkeywords : (words (core ++ ';' :: more)).map Keyword.ofWord =
      ((words core).map Keyword.ofWord).dropLast ++
        List.replicate ((words (more.dropWhile (· == ';'))).length + 1) .other := by
    rw [hsplit, ← List.append_assoc, words_append _ (endsWord_of_separators hmore hapart), hw,
      List.map_append, List.map_append, List.map_dropLast, keywords_separators hmore,
      List.map_singleton, hother, List.append_assoc, List.singleton_append, List.replicate_succ]
  rw [hkeywords]
  exact .attached _ hfirst

theorem keywordsOf_ended (command : String) :
    Ended ((words (coreOf command)).map Keyword.ofWord) (remnant command) (keywordsOf command) := by
  have hcore : dropTrailing isSeparator (coreOf command) = coreOf command :=
    List.rdropWhile_idempotent _ _
  have hsep : ∀ c ∈ remnant command, isSeparator c = true := fun c hc =>
    List.mem_rtakeWhile_imp ((withoutEnd_isPrefix _).subset hc)
  rw [keywordsOf, wordsOf_eq]
  by_cases hfirst : (remnant command).head? = some ';'
  · exact ended_of_semicolon hcore hsep hfirst
  · exact ended_of_endsWord hsep hfirst

/-! ## Classes -/

theorem ofKeywords_concat_other_ne (ks : List Keyword) :
    ofKeywords (ks ++ [.other]) ≠ .manualMerge := by
  intro h
  obtain ⟨name, hks⟩ := eq_of_ofKeywords_eq_manualMerge h
  have hlast := congrArg List.getLast? hks
  rw [List.getLast?_concat] at hlast
  cases hlast

/-- Of words that are no keywords the first makes all the difference. -/
theorem ofKeywords_append_replicate (ks : List Keyword) (n : Nat) :
    ofKeywords (ks ++ List.replicate (n + 1) .other) = ofKeywords (ks ++ [.other]) := by
  rw [List.replicate_succ, ← List.singleton_append, ← List.append_assoc,
    ofKeywords_append_others (ofKeywords_concat_other_ne ks)]

theorem ofKeywords_concat_other_iff {ks : List Keyword} :
    ofKeywords (ks ++ [.other]) = ofKeywords ks ↔ ofKeywords ks ≠ .manualMerge := by
  constructor
  · intro h
    rw [← h]
    exact ofKeywords_concat_other_ne ks
  · intro h
    exact ofKeywords_append_others h 1

namespace Ended

variable {ks ks' : List Keyword} {rest : List Char}

/-- A semicolon that stays leaves words at the end that are no keywords, after all the words of
the core or after all but the last. -/
theorem exists_others (h : Ended ks rest ks') (hmem : ';' ∈ rest) :
    ∃ n, ks' = (if rest.head? = some ';' then ks.dropLast else ks) ++
      List.replicate (n + 1) .other := by
  cases h with
  | clean hclean => exact absurd hmem hclean
  | apart n _ hfirst => exact ⟨n, by rw [if_neg hfirst]⟩
  | attached n hfirst => exact ⟨n, by rw [if_pos hfirst]⟩

theorem eq_of_notMem (h : Ended ks rest ks') (hmem : ';' ∉ rest) : ks' = ks := by
  cases h with
  | clean => rfl
  | apart _ hsemicolon => exact absurd hsemicolon hmem
  | attached _ hfirst => exact absurd (List.mem_of_mem_head? hfirst) hmem

/-- Whether the class is that of the core. -/
theorem ofKeywords_eq_iff (h : Ended ks rest ks') :
    ofKeywords ks' = ofKeywords ks ↔
      ¬(';' ∈ rest ∧ (ofKeywords ks = .manualMerge ∨
        ofKeywords (ks.dropLast ++ [.other]) ≠ ofKeywords ks ∧ rest.head? = some ';')) := by
  cases h with
  | clean hclean => simp [hclean]
  | apart n hmem hfirst =>
    rw [ofKeywords_append_replicate, ofKeywords_concat_other_iff]
    simp [hmem, hfirst]
  | attached n hfirst =>
    rw [ofKeywords_append_replicate]
    have hmem : ';' ∈ rest := List.mem_of_mem_head? hfirst
    -- a manual merge hangs on its last word
    have hmanual : ofKeywords ks = .manualMerge →
        ofKeywords (ks.dropLast ++ [.other]) ≠ ofKeywords ks := by
      intro hks
      rw [hks]
      exact ofKeywords_concat_other_ne _
    simp only [hmem, hfirst, true_and, and_true]
    tauto

end Ended

/-- Whether a command would be of another class with another word in the place of its last. -/
def hangsOnLastWord (command : String) : Bool :=
  ofKeywords ((keywordsOf command).dropLast ++ [.other]) != of command

section Suffix

variable {suffix : String} (command : String)

theorem coreOf_append (h : ∀ c ∈ suffix.toList, isSeparator c = true) :
    coreOf (command ++ suffix) = coreOf command := by
  have hreverse : ∀ c ∈ suffix.toList.reverse, isSeparator c = true := by simpa using h
  rw [coreOf, coreOf, List.rdropWhile, List.rdropWhile, String.toList_append, List.reverse_append,
    List.dropWhile_append_of_pos hreverse]

theorem remnant_append (h : ∀ c ∈ suffix.toList, isSeparator c = true) :
    remnant command <+: remnant (command ++ suffix) := by
  have hreverse : ∀ c ∈ suffix.toList.reverse, isSeparator c = true := by simpa using h
  apply withoutEnd_mono
  rw [List.rtakeWhile, List.rtakeWhile, String.toList_append, List.reverse_append,
    List.takeWhile_append_of_pos hreverse, List.reverse_append, List.reverse_reverse]
  exact List.prefix_append _ _

end Suffix

/-- Separators at the end of a command leave its class as it is, unless a semicolon among them
stays: then a manual merge is no manual one any more, and a command that hangs on its last
word is lost if the semicolon stands right behind that word. -/
theorem of_append_separators_iff (command suffix : String)
    (h : ∀ c ∈ suffix.toList, isSeparator c = true) :
    of (command ++ suffix) = of command ↔
      ¬(';' ∈ remnant (command ++ suffix) ∧
        (of command = .manualMerge ∨
          hangsOnLastWord command = true ∧ (remnant (command ++ suffix)).head? = some ';')) := by
  have hbefore := keywordsOf_ended command
  have hafter := keywordsOf_ended (command ++ suffix)
  rw [coreOf_append command h] at hafter
  rw [hangsOnLastWord, bne_iff_ne, of_eq, of_eq]
  by_cases hmem : ';' ∈ remnant command
  · -- a semicolon stays already, and there is no class left to lose
    obtain ⟨more, hmore⟩ := remnant_append command h
    have hhead : (remnant (command ++ suffix)).head? = (remnant command).head? := by
      obtain ⟨first, rest, hrest⟩ := List.exists_cons_of_ne_nil (List.ne_nil_of_mem hmem)
      rw [← hmore, hrest]
      rfl
    have hmem' : ';' ∈ remnant (command ++ suffix) := by
      rw [← hmore]
      exact List.mem_append_left _ hmem
    obtain ⟨n, hn⟩ := hbefore.exists_others hmem
    obtain ⟨n', hn'⟩ := hafter.exists_others hmem'
    rw [hhead] at hn'
    have hlast : (keywordsOf command).dropLast ++ [.other] = keywordsOf command := by
      rw [hn, List.replicate_succ', ← List.append_assoc, List.dropLast_concat]
    rw [hlast]
    rw [hn, hn', ofKeywords_append_replicate, ofKeywords_append_replicate]
    simp [ofKeywords_concat_other_ne]
  · rw [hbefore.eq_of_notMem hmem]
    exact hafter.ofKeywords_eq_iff

/-- Separators at the end of a command do not always leave its class as it is. -/
theorem separators_not_always_ignored :
    ¬∀ command suffix : String, (∀ c ∈ suffix.toList, isSeparator c = true) →
      of (command ++ suffix) = of command := by
  intro h
  have hclass := h "COMMIT MERGE" "; ;" (List.all_eq_true.1 rfl)
  revert hclass
  decide +kernel

/-- A semicolon behind the last word loses a command, and one that stands apart does not. -/
theorem commitMerge_separators :
    of ("COMMIT MERGE" ++ "; ;") ≠ of "COMMIT MERGE" ∧
      of ("COMMIT MERGE" ++ " ; ;") = of "COMMIT MERGE" := by
  have hlost := of_append_separators_iff "COMMIT MERGE" "; ;" (List.all_eq_true.1 rfl)
  have hkept := of_append_separators_iff "COMMIT MERGE" " ; ;" (List.all_eq_true.1 rfl)
  refine ⟨fun heq => hlost.1 heq ?_, hkept.2 ?_⟩
  · decide +kernel
  · decide +kernel

end CommandClass
end DbClient
