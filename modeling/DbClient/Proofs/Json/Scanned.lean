import DbClient.Json.Token

/-!
# Scanning in parts

The tokens of a line are those of its parts, one after another, wherever the line may be cut
between two tokens. Only a number does not show where it ends, and so what stands behind it
must not go on with it: it begins with space or a mark, or there is nothing.
-/

namespace DbClient.Json

/-- Whether a token ended well. -/
def Token.isClosed : Token → Bool
  | mark _ => true
  | word _ e | number _ e | text _ e => e = .closed
  | stray => false

/-- Tokens that all ended well. -/
def AllClosed (ts : List Token) : Prop :=
  ∀ t ∈ ts, t.isClosed = true

namespace AllClosed

variable {t : Token} {ts us : List Token}

theorem nil : AllClosed [] := by
  intro t ht
  cases ht

theorem cons (ht : t.isClosed = true) (hts : AllClosed ts) : AllClosed (t :: ts) :=
  List.forall_mem_cons.2 ⟨ht, hts⟩

theorem singleton (ht : t.isClosed = true) : AllClosed [t] :=
  nil.cons ht

theorem append (hts : AllClosed ts) (hus : AllClosed us) : AllClosed (ts ++ us) :=
  List.forall_mem_append.2 ⟨hts, hus⟩

end AllClosed

namespace Scan

/-! ## Parts of a line -/

/-- The tokens that bytes complete, and what is open after them. -/
def through : Scan → Bytes → List Token × Option Scan
  | s, [] => ([], some s)
  | s, b :: rest =>
    match s.feed b with
    | (out, some next) => (out ++ (through next rest).1, (through next rest).2)
    | (out, none) => (out, none)

variable {s : Scan} {a b : Bytes} {m : Mark}

theorem tokens_append (s : Scan) (a b : Bytes) :
    tokens s (a ++ b) = (through s a).1 ++ (through s a).2.elim [] fun next => tokens next b := by
  induction a generalizing s with
  | nil => rfl
  | cons x a ih =>
    rw [List.cons_append, tokens, through]
    rcases s.feed x with ⟨out, _ | next⟩
    · rfl
    · simp only [ih next, List.append_assoc]

theorem tokens_eq (s : Scan) (a : Bytes) :
    tokens s a = (through s a).1 ++ (through s a).2.elim [] finish := by
  have h := tokens_append s a []
  rwa [List.append_nil] at h

/-- Whether the line may end here. -/
def mayEnd : Scan → Bool
  | between => true
  | number _ stage => stage.mayEnd
  | word _ _ | text _ | escape _ | hex _ _ => false

theorem mayEnd_of_finish (h : AllClosed s.finish) : s.mayEnd = true := by
  cases s with
  | between => rfl
  | number n stage =>
    have hend := h _ (List.mem_singleton_self _)
    cases hstage : stage.mayEnd with
    | true => exact hstage
    | false =>
      rw [hstage] at hend
      cases hend
  | word | text | escape | hex => cases h _ (List.mem_singleton_self _)

/-- A property of bytes is decided by asking each of them. -/
instance (priority := low) decidableForallByte {P : UInt8 → Prop} [DecidablePred P] :
    Decidable (∀ x, P x) :=
  have each : (∀ n : Nat, n < 256 → P (UInt8.ofNat n)) ↔ ∀ x, P x := by
    constructor
    · intro h x
      have hx := h x.toNat x.toNat_lt
      rwa [UInt8.ofNat_toNat] at hx
    · exact fun h n _ => h _
  decidable_of_iff _ each

/-- What one byte does, except that it ends a number in front of it: it opens a token or goes on
with what is open, it completes a token, or it spoils one. -/
inductive Fed (s : Scan) : List Token × Option Scan → Prop
  | more (next : Scan) (h : s ≠ .between → next ≠ .between) : Fed s ([], some next)
  | completed (t : Token) (hclosed : t.isClosed = true)
    (h : s ≠ .between → ∀ m, t ≠ .mark m) : Fed s ([t], some .between)
  | spoiled (t : Token) (h : t.isClosed = false) : Fed s ([t], none)

/-- A byte that a number does not go on with is read as it is between two tokens. -/
def EndsNumber (s : Scan) (x : UInt8) : Prop :=
  ∃ n stage, s = .number n stage ∧ stage.mayEnd = true ∧
    s.feed x = (.number n .closed :: (start x).1, (start x).2)

theorem start_of_space {x : UInt8} (h : isSpace x = true) : start x = ([], some .between) :=
  if_pos h

theorem start_of_mark {x : UInt8} (hspace : isSpace x = false) (h : mark? x = some m) :
    start x = ([.mark m], some .between) := by
  simp [start, hspace, h]

/-- Other bytes open a token, or start none. -/
theorem start_other {x : UInt8} (hspace : isSpace x = false) (hmark : mark? x = none) :
    (∃ next, start x = ([], some next) ∧ next ≠ .between) ∨ start x = ([.stray], none) := by
  simp only [start, hspace, hmark]
  repeat' split
  · contradiction
  all_goals first
    | exact .inl ⟨_, rfl, by simp⟩
    | exact .inr rfl

theorem fed_start (x : UInt8) : Fed .between (start x) := by
  cases hspace : isSpace x with
  | true =>
    rw [start_of_space hspace]
    exact .more _ (absurd rfl)
  | false =>
    cases hmark : mark? x with
    | some m =>
      rw [start_of_mark hspace hmark]
      exact .completed _ rfl (absurd rfl)
    | none =>
      rcases start_other hspace hmark with ⟨next, hstart, -⟩ | hstart
      · rw [hstart]
        exact .more _ (absurd rfl)
      · rw [hstart]
        exact .spoiled _ rfl

theorem fed (s : Scan) (x : UInt8) : Fed s (s.feed x) ∨ s.EndsNumber x := by
  cases s with
  | between => exact .inl (fed_start x)
  | word w due =>
    refine .inl ?_
    cases due with
    | nil => exact .completed _ rfl (by simp)
    | cons d due =>
      simp only [feed]
      by_cases hx : x ≠ d
      · rw [if_pos hx]
        exact .spoiled _ rfl
      · rw [if_neg hx]
        cases due with
        | nil => exact .completed _ rfl (by simp)
        | cons => exact .more _ (by simp)
  | number n stage =>
    cases hfeed : n.feed? stage x with
    | some next =>
      refine .inl ?_
      simp only [feed, hfeed]
      exact .more _ (by simp)
    | none =>
      cases hspoiled : stage.spoiledBy x with
      | true =>
        refine .inl ?_
        simp only [feed, hfeed, hspoiled]
        exact .spoiled _ rfl
      | false =>
        refine .inr ⟨n, stage, rfl, ?_, ?_⟩
        · cases stage <;> first | rfl | cases hspoiled
        · simp only [feed, hfeed, hspoiled]
          rfl
  | text read =>
    refine .inl ?_
    simp only [feed]
    repeat' split
    · exact .completed _ rfl (by simp)
    · exact .more _ (by simp)
    · exact .spoiled _ rfl
    · exact .more _ (by simp)
  | escape read =>
    refine .inl ?_
    simp only [feed]
    repeat' split
    · exact .more _ (by simp)
    · exact .more _ (by simp)
    · exact .spoiled _ rfl
  | hex read seen =>
    refine .inl ?_
    simp only [feed]
    repeat' split
    · exact .more _ (by simp)
    · exact .spoiled _ rfl
    · exact .more _ (by simp)

theorem Fed.exists_spoiled {r : List Token × Option Scan} (hfed : Fed s r) (h : r.2 = none) :
    ∃ t, r.1 = [t] ∧ t.isClosed = false := by
  cases hfed with
  | more | completed => cases h
  | spoiled t ht => exact ⟨t, rfl, ht⟩

/-- Nothing is open only after a spoiled token. -/
theorem spoiled_of_feed {x : UInt8} (h : (s.feed x).2 = none) :
    ∃ out t, (s.feed x).1 = out ++ [t] ∧ t.isClosed = false := by
  rcases s.fed x with hfed | ⟨n, stage, -, -, hfeed⟩
  · obtain ⟨t, hout, ht⟩ := hfed.exists_spoiled h
    exact ⟨[], t, hout, ht⟩
  · rw [hfeed] at h ⊢
    obtain ⟨t, hout, ht⟩ := (fed_start x).exists_spoiled h
    exact ⟨[.number n .closed], t, congrArg _ hout, ht⟩

/-- So it is after several bytes. -/
theorem spoiled_of_through (h : (through s a).2 = none) :
    ∃ out t, (through s a).1 = out ++ [t] ∧ t.isClosed = false := by
  induction a generalizing s with
  | nil => cases h
  | cons x a ih =>
    rw [through] at h ⊢
    rcases hfeed : s.feed x with ⟨out, _ | next⟩
    · have hspoiled := spoiled_of_feed (s := s) (x := x) (by rw [hfeed])
      rwa [hfeed] at hspoiled
    · rw [hfeed] at h
      obtain ⟨before, t, hout, ht⟩ := ih h
      refine ⟨out ++ before, t, ?_, ht⟩
      rw [List.append_assoc, ← hout]

/-- Bytes whose tokens all ended well lead to where the line may end. -/
theorem exists_through_of_closed (h : AllClosed (tokens s a)) :
    ∃ next, (through s a).2 = some next ∧ next.mayEnd = true := by
  rw [tokens_eq] at h
  cases hnext : (through s a).2 with
  | none =>
    obtain ⟨out, t, hout, ht⟩ := spoiled_of_through hnext
    have hclosed := h t (by simp [hout])
    rw [ht] at hclosed
    cases hclosed
  | some next =>
    rw [hnext] at h
    exact ⟨next, rfl, mayEnd_of_finish fun t ht => h t (List.mem_append_right _ ht)⟩

/-- Bytes whose last token is a mark lead between two tokens. -/
theorem through_of_mark {ts : List Token} (h : tokens s a = ts ++ [.mark m]) :
    (through s a).2 = some .between := by
  rw [tokens_eq] at h
  cases hnext : (through s a).2 with
  | none =>
    obtain ⟨out, t, hout, ht⟩ := spoiled_of_through hnext
    rw [hnext, hout, Option.elim_none, List.append_nil] at h
    have hlast := (List.append_inj' h rfl).2
    cases hlast
    cases ht
  | some next =>
    rw [hnext] at h
    cases next with
    | between => rfl
    | word | number | text | escape | hex =>
      -- the end of the line leaves a token that is no mark
      have hlast := (List.append_inj' h rfl).2
      cases hlast

/-! ## Separators -/

/-- Whether a byte ends a number in front of it. -/
def separates (x : UInt8) : Bool :=
  isSpace x || (mark? x).isSome

/-- Bytes that do not go on with a number in front of them. -/
def Separated (b : Bytes) : Prop :=
  ∀ x ∈ b.head?, separates x = true

theorem separated_cons {x : UInt8} (h : separates x = true) : Separated (x :: b) := by
  intro y hy
  cases hy
  exact h

/-- A separator is part of no number. -/
theorem foreign_of_separates : ∀ {x : UInt8}, separates x = true →
    isDigit x = false ∧ x ≠ 0x2E ∧ x ≠ 0x65 ∧ x ≠ 0x45 := by
  decide +kernel

theorem feed_number_of_separates {x : UInt8} (h : separates x = true) (n : Numeral)
    {stage : Stage} (hend : stage.mayEnd = true) :
    (number n stage).feed x = (.number n .closed :: (start x).1, (start x).2) := by
  obtain ⟨hdigit, hpoint, he, hE⟩ := foreign_of_separates h
  have hnone : n.feed? stage x = none := by
    cases stage with
    | sign | point | mark | markSign => cases hend
    | zero | whole | places | power => simp [Numeral.feed?, hdigit, hpoint, he, hE]
  have hclosed : stage.spoiledBy x = false := by simp [Stage.spoiledBy, hend, hdigit]
  simp only [feed, hnone, hclosed]
  rfl

/-- Where the line may end, a separator is read as it is between two tokens. -/
theorem tokens_of_separated (hend : s.mayEnd = true) (hb : Separated b) :
    tokens s b = s.finish ++ tokens .between b := by
  cases s with
  | between => rfl
  | number n stage =>
    have hfinish : (number n stage).finish = [.number n .closed] := by
      simp only [finish, show stage.mayEnd = true from hend, if_true]
    cases b with
    | nil => simp [tokens, finish]
    | cons x b =>
      rw [tokens, feed_number_of_separates (hb x rfl) n hend, hfinish]
      rfl
  | word | text | escape | hex => cases hend

/-! ## Tokens that are open -/

/-- What is open becomes a token, well or badly, and no mark. -/
theorem exists_tokens_eq_cons (h : s ≠ .between) (b : Bytes) :
    ∃ t ts, s.tokens b = t :: ts ∧ ∀ m, t ≠ .mark m := by
  induction b generalizing s with
  | nil => cases s <;> simp_all [tokens, finish]
  | cons x b ih =>
    rw [tokens]
    rcases s.fed x with hfed | ⟨n, stage, -, -, hfeed⟩
    · generalize s.feed x = r at hfed ⊢
      cases hfed with
      | more next hnext => exact ih (hnext h)
      | completed t _ ht => exact ⟨t, _, rfl, ht h⟩
      | spoiled t ht =>
        refine ⟨t, _, rfl, ?_⟩
        rintro m rfl
        cases ht
    · rw [hfeed]
      exact ⟨_, _, rfl, by simp⟩

/-! ## Where a line may be cut -/

/-- What is open is ended by the end of the line at the latest. -/
theorem finish_eq {ts us : List Token} (h : s.finish = ts ++ us) (hts : ts ≠ []) :
    ts = s.finish ∧ us = [] := by
  have hlen : s.finish.length ≤ 1 := by
    cases s <;> simp [finish]
  rw [h, List.length_append] at hlen
  have hpos := List.length_pos_iff.2 hts
  have hus : us = [] := List.length_eq_zero_iff.1 (by omega)
  rw [h, hus, List.append_nil]
  exact ⟨rfl, rfl⟩

/-- Whether a line may be cut behind its first tokens, so that the others are left. -/
def Cuts (s : Scan) (line : Bytes) (ts us : List Token) : Prop :=
  ∃ a b, line = a ++ b ∧ tokens s a = ts ∧ tokens .between b = us

theorem cuts_cons {x : UInt8} {line : Bytes} {ts us : List Token} (hfed : Fed s (s.feed x))
    (ih : ∀ {s ts}, tokens s line = ts ++ us → ts ≠ [] → AllClosed ts →
      Cuts s line ts us)
    (h : tokens s (x :: line) = ts ++ us) (hts : ts ≠ []) (hclosed : AllClosed ts) :
    Cuts s (x :: line) ts us := by
  rw [tokens] at h
  have hfeed : ∀ a, tokens s (x :: a) =
      (s.feed x).1 ++ (s.feed x).2.elim [] fun next => tokens next a := by
    intro a
    rw [tokens]
    cases (s.feed x).2 <;> rfl
  generalize s.feed x = r at hfed h hfeed
  cases hfed with
  | more next =>
    obtain ⟨a, b, rfl, ha, hb⟩ := ih h hts hclosed
    exact ⟨x :: a, b, rfl, (hfeed a).trans ha, hb⟩
  | spoiled t ht =>
    obtain ⟨t', ts', rfl⟩ := List.exists_cons_of_ne_nil hts
    cases (List.cons.inj h).1
    rw [hclosed t List.mem_cons_self] at ht
    cases ht
  | completed t =>
    obtain ⟨t', ts', rfl⟩ := List.exists_cons_of_ne_nil hts
    obtain ⟨ht, hrest⟩ := List.cons.inj h
    cases ht
    by_cases hnil : ts' = []
    · subst hnil
      exact ⟨[x], line, rfl, hfeed [], hrest⟩
    · obtain ⟨a, b, rfl, ha, hb⟩ := ih hrest hnil (List.forall_mem_cons.1 hclosed).2
      exact ⟨x :: a, b, rfl, (hfeed a).trans (congrArg _ ha), hb⟩

/-- A line may be cut behind tokens that ended well. -/
theorem cuts {line : Bytes} {ts us : List Token} (h : tokens s line = ts ++ us)
    (hts : ts ≠ []) (hclosed : AllClosed ts) : Cuts s line ts us := by
  induction line generalizing s ts with
  | nil =>
    obtain ⟨rfl, rfl⟩ := finish_eq h hts
    exact ⟨[], [], rfl, rfl, rfl⟩
  | cons x line ih =>
    rcases s.fed x with hfed | ⟨n, stage, rfl, hend, hfeed⟩
    · exact cuts_cons hfed ih h hts hclosed
    · -- the number ends in front of the byte, and the line may be cut there
      have hnumber : ∀ a, tokens (number n stage) (x :: a) =
          .number n .closed :: tokens .between (x :: a) := by
        intro a
        rw [tokens, hfeed, tokens]
        rfl
      obtain ⟨t, ts', rfl⟩ := List.exists_cons_of_ne_nil hts
      rw [hnumber] at h
      obtain ⟨ht, hrest⟩ := List.cons.inj h
      cases ht
      by_cases hnil : ts' = []
      · subst hnil
        exact ⟨[], x :: line, rfl, by simp only [tokens, finish, hend, if_true], hrest⟩
      · obtain ⟨a, b, hline, ha, hb⟩ :=
          cuts_cons (fed_start x) ih hrest hnil (List.forall_mem_cons.1 hclosed).2
        cases a with
        | nil => exact absurd ha.symm hnil
        | cons y a =>
          obtain ⟨rfl, rfl⟩ := List.cons.inj hline
          exact ⟨x :: a, b, rfl, (hnumber a).trans (congrArg _ ha), hb⟩

end Scan

/-! ## Whole lines -/

open Scan (Separated through)

variable {a b : Bytes} {m : Mark}

theorem scan_nil : scan [] = [] := rfl

theorem scan_cons_space {x : UInt8} (h : isSpace x = true) (b : Bytes) :
    scan (x :: b) = scan b := by
  rw [scan, Scan.tokens, Scan.feed, Scan.start_of_space h]
  rfl

theorem scan_space (h : ∀ x ∈ a, isSpace x = true) (b : Bytes) : scan (a ++ b) = scan b := by
  induction a with
  | nil => rfl
  | cons x a ih =>
    obtain ⟨hx, ha⟩ := List.forall_mem_cons.1 h
    rw [List.cons_append, scan_cons_space hx, ih ha]

theorem scan_cons_mark {x : UInt8} (h : mark? x = some m) (b : Bytes) :
    scan (x :: b) = .mark m :: scan b := by
  have hspace : ∀ x, (mark? x).isSome = true → isSpace x = false := by decide +kernel
  rw [scan, Scan.tokens, Scan.feed, Scan.start_of_mark (hspace x (by rw [h]; rfl)) h]
  rfl

/-- A byte that is neither space nor a mark begins another token. -/
theorem scan_cons_other {x : UInt8} (hspace : isSpace x = false) (hmark : mark? x = none)
    (b : Bytes) : ∃ t ts, scan (x :: b) = t :: ts ∧ ∀ m, t ≠ .mark m := by
  rw [scan, Scan.tokens, Scan.feed]
  rcases Scan.start_other hspace hmark with ⟨next, hstart, hnext⟩ | hstart
  · rw [hstart]
    exact Scan.exists_tokens_eq_cons hnext b
  · rw [hstart]
    exact ⟨.stray, [], rfl, by simp⟩

/-- Only space has no tokens. -/
theorem scan_eq_nil_iff : scan a = [] ↔ ∀ x ∈ a, isSpace x = true := by
  constructor
  · intro h
    induction a with
    | nil => simp
    | cons x a ih =>
      cases hspace : isSpace x with
      | true =>
        rw [scan_cons_space hspace] at h
        exact List.forall_mem_cons.2 ⟨hspace, ih h⟩
      | false =>
        cases hmark : mark? x with
        | some m =>
          rw [scan_cons_mark hmark] at h
          cases h
        | none =>
          obtain ⟨t, ts, hscan, -⟩ := scan_cons_other hspace hmark a
          rw [hscan] at h
          cases h
  · intro h
    have hspace := scan_space h []
    rwa [List.append_nil] at hspace

/-- A mark stands alone, or with space around it. -/
theorem exists_of_scan_eq_mark (h : scan a = [.mark m]) :
    ∃ before x after, a = before ++ x :: after ∧ mark? x = some m ∧
      (∀ x ∈ before, isSpace x = true) ∧ ∀ x ∈ after, isSpace x = true := by
  induction a with
  | nil => cases h
  | cons x a ih =>
    cases hspace : isSpace x with
    | true =>
      rw [scan_cons_space hspace] at h
      obtain ⟨before, y, after, rfl, hy, hbefore, hafter⟩ := ih h
      exact ⟨x :: before, y, after, rfl, hy, List.forall_mem_cons.2 ⟨hspace, hbefore⟩, hafter⟩
    | false =>
      cases hmark : mark? x with
      | some m' =>
        rw [scan_cons_mark hmark] at h
        obtain ⟨hm, hrest⟩ := List.cons.inj h
        cases hm
        exact ⟨[], x, a, rfl, hmark, by simp, scan_eq_nil_iff.1 hrest⟩
      | none =>
        obtain ⟨t, ts, hscan, ht⟩ := scan_cons_other hspace hmark a
        rw [hscan] at h
        cases h
        exact absurd rfl (ht m)

/-- A line may be cut before a separator. -/
theorem scan_append (ha : AllClosed (scan a)) (hb : Separated b) :
    scan (a ++ b) = scan a ++ scan b := by
  obtain ⟨next, hnext, hend⟩ := Scan.exists_through_of_closed ha
  rw [scan, Scan.tokens_append, scan, Scan.tokens_eq, hnext, Option.elim_some, Option.elim_some,
    Scan.tokens_of_separated hend hb, List.append_assoc]
  rfl

/-- A line may be cut behind a mark. -/
theorem scan_append_of_mark {ts : List Token} (ha : scan a = ts ++ [.mark m]) (b : Bytes) :
    scan (a ++ b) = scan a ++ scan b := by
  have hnext := Scan.through_of_mark ha
  rw [scan, Scan.tokens_append, scan, Scan.tokens_eq, hnext, Option.elim_some, Option.elim_some,
    Scan.finish, List.append_nil]
  rfl

/-- Tokens that ended well are those of a first part of the line. -/
theorem exists_of_scan_eq_append {line : Bytes} {ts us : List Token} (h : scan line = ts ++ us)
    (hts : ts ≠ []) (hclosed : AllClosed ts) :
    ∃ a b, line = a ++ b ∧ scan a = ts ∧ scan b = us :=
  Scan.cuts h hts hclosed

end DbClient.Json
