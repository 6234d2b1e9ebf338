import DbClient.Proofs.Json.Scanned
import DbClient.Proofs.Reply.Faults
import DbClient.Proofs.Reply.Trees

/-!
# Truncated lines

An envelope ends with the bracket that closes it, and behind it only space may stand. So
nothing that is cut off a line can go unnoticed, unless it is space.
-/

namespace DbClient.Envelope

open Json (Token Tree)

/-- An envelope is an object or an array: its last token is a mark. -/
theorem exists_mark_of_readTree {t : Tree} {e : Envelope} (h : readTree t = .ok e) :
    ∃ ts m, t.tokens = ts ++ [Token.mark m] := by
  cases t with
  | word | number | text => cases h
  | array items => exact ⟨_, .closeArray, by rw [Tree.tokens, List.cons_append]⟩
  | object members => exact ⟨_, .closeObject, by rw [Tree.tokens, List.cons_append]⟩

/-- Behind an envelope only space may stand. -/
theorem read_append {line : Bytes} {e : Envelope} (h : read line = .ok e) (rest : Bytes) :
    read (line ++ rest) =
      if rest.all Json.isSpace then .ok e else .error (.fault .malformed) := by
  obtain ⟨t, htokens, ht⟩ := exists_tree_of_read h
  obtain ⟨ts, m, hlast⟩ := exists_mark_of_readTree ht
  have hscan : Json.scan (line ++ rest) = Json.scan line ++ Json.scan rest :=
    Json.scan_append_of_mark (htokens.trans hlast) rest
  -- the tokens of the line lead to the end of the envelope
  have hread := h
  rw [read, run_eq_foldlM] at hread
  obtain ⟨s, hs, hfinish⟩ := exists_of_bind_ok hread
  rw [read, hscan, run_eq_foldlM, List.foldlM_append, hs]
  cases s with
  | nothing f =>
    cases hrest : Json.scan rest with
    | nil =>
      rw [if_pos (List.all_eq_true.2 (Json.scan_eq_nil_iff.1 hrest))]
      exact hfinish
    | cons first more =>
      have hne : ¬rest.all Json.isSpace = true := by
        intro hspace
        rw [Json.scan_eq_nil_iff.2 (List.all_eq_true.1 hspace)] at hrest
        cases hrest
      rw [if_neg hne]
      rfl
  | _ => cases hfinish

/-- However much is cut off the end of an envelope's line, what is left is a violation of the
protocol, provided that the line does not end with space. -/
theorem decode_of_truncated {frame part : Bytes} {command : String} {e : Envelope}
    (h : decode frame command = .ok e) (hlast : ∀ b ∈ frame.getLast?, Json.isSpace b = false)
    (hpart : part <+: frame) (hne : part ≠ frame) :
    ∃ problem,
      decode part command = .error (.protocol command (.noEnvelope problem (excerpt part))) := by
  obtain ⟨cut, rfl⟩ := hpart
  have hcut : cut ≠ [] := by
    rintro rfl
    exact hne (List.append_nil part).symm
  cases hpart : read part with
  | error problem => exact ⟨problem, by rw [decode, hpart]⟩
  | ok e' =>
    -- an envelope already: what has been cut off is space, and so is the end of the line
    have hframe := decode_eq_ok_iff.1 h
    rw [read_append hpart] at hframe
    by_cases hspace : cut.all Json.isSpace = true
    · have hend : (part ++ cut).getLast? = some (cut.getLast hcut) := by
        rw [List.getLast?_append, List.getLast?_eq_some_getLast hcut]
        rfl
      have hother := hlast _ hend
      rw [List.all_eq_true.1 hspace _ (List.getLast_mem hcut)] at hother
      cases hother
    · rw [if_neg hspace] at hframe
      cases hframe

/-- A line cut inside an escape of a text that is skipped. -/
theorem decode_of_cutEscape :
    let frame := Utf8.encode "\x7b\"note\":\"\\u00e9\",\"success\":true\x7d"
    decode frame "SELECT 1" = .ok ⟨true, none, none, none⟩ ∧
      ∃ problem, decode (frame.take 12) "SELECT 1" =
        .error (.protocol "SELECT 1" (.noEnvelope problem (excerpt (frame.take 12)))) := by
  intro frame
  have hframe : decode frame "SELECT 1" = .ok ⟨true, none, none, none⟩ := by rfl
  have hend : frame.getLast? = some 0x7D := by rfl
  have hlonger : (frame.take 12).length < frame.length := by decide +kernel
  refine ⟨hframe, decode_of_truncated hframe ?_ (List.take_prefix 12 frame) ?_⟩
  · rw [hend]
    rintro b ⟨⟩
    rfl
  · intro hsame
    rw [hsame] at hlonger
    exact Nat.lt_irrefl _ hlonger

end DbClient.Envelope
