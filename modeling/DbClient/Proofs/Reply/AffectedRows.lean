import DbClient.Proofs.Reply.CommitPayload
import DbClient.Proofs.Reply.WholeLine
import Mathlib.Algebra.GroupWithZero.Nat
import Mathlib.Algebra.Order.BigOperators.Group.List
import Mathlib.Algebra.Order.Group.Nat

/-!
# Affected rows

The counters of a summary are added up one after another, and the sum stops at the largest counter
where it would grow beyond it. That is the exact sum, cut once at the end: so the order of the
counters plays no part, a larger counter never makes the sum smaller, and the sum never wraps,
whatever a reply reports.
-/

namespace DbClient

namespace CommitResult

variable {c d : CommitResult}

/-- The counters of a summary. -/
def counters (c : CommitResult) : List UInt64 :=
  Counter.all.map (·.of c)

/-- The exact sum of the six counters. -/
def total (c : CommitResult) : Nat :=
  c.databasesCreated.toNat + c.databasesDeleted.toNat + c.tablesCreated.toNat +
    c.tablesDeleted.toNat + c.recordsWritten.toNat + c.recordsDeleted.toNat

theorem sum_counters (c : CommitResult) : (c.counters.map UInt64.toNat).sum = c.total := by
  simp only [counters, Counter.all, List.map_cons, List.map_nil, List.sum_cons, List.sum_nil, total]
  omega

/-! ## Adding up -/

theorem toNat_saturatingAdd (a b : UInt64) :
    (saturatingAdd a b).toNat = min (a.toNat + b.toNat) maxUnsigned := by
  have ha := a.toNat_lt
  have hb := b.toNat_lt
  have hadd : (a + b).toNat = (a.toNat + b.toNat) % 2 ^ 64 := UInt64.toNat_add a b
  have hmax : (UInt64.ofNat maxUnsigned).toNat = maxUnsigned := rfl
  unfold saturatingAdd
  split
  · next hwrapped =>
    rw [UInt64.lt_iff_toNat_lt] at hwrapped
    rw [hmax, maxUnsigned]
    omega
  · next hfits =>
    rw [UInt64.lt_iff_toNat_lt] at hfits
    rw [maxUnsigned]
    omega

/-- Stopping at the largest counter after every step is stopping there once, at the end. -/
theorem toNat_foldl_saturatingAdd (counters : List UInt64) (a : UInt64) :
    (counters.foldl saturatingAdd a).toNat =
      min (a.toNat + (counters.map UInt64.toNat).sum) maxUnsigned := by
  induction counters generalizing a with
  | nil =>
    have ha : a.toNat ≤ maxUnsigned := Nat.le_of_lt_succ a.toNat_lt
    simp [ha]
  | cons n counters ih =>
    rw [List.foldl_cons, ih, toNat_saturatingAdd, List.map_cons, List.sum_cons]
    omega

theorem toNat_affectedRows (c : CommitResult) :
    c.affectedRows.toNat = min c.total maxUnsigned := by
  have hsum := toNat_foldl_saturatingAdd c.counters 0
  rw [UInt64.toNat_zero, Nat.zero_add, sum_counters] at hsum
  exact hsum

theorem total_eq_of_perm (h : d.counters.Perm c.counters) : d.total = c.total := by
  rw [← sum_counters, ← sum_counters, (h.map UInt64.toNat).sum_nat]

theorem total_le_of_counters_le (h : ∀ k ∈ Counter.all, k.of c ≤ k.of d) : c.total ≤ d.total := by
  rw [← sum_counters, ← sum_counters, counters, counters, List.map_map, List.map_map]
  exact List.sum_le_sum fun k hk => UInt64.le_iff_toNat_le.1 (h k hk)

end CommitResult

/-! ## What a reply reports -/

/-- The number that is given for a counter: none counts as zero. -/
def Counter.givenIn (given : List (String × Json)) (k : Counter) : Nat :=
  match given.lookup k.name with
  | some (.integer n) => n.toNat
  | _ => 0

/-- The values that the result of a commit gives, under the names of their fields. -/
def CommitPayload.given (result : Option Json) : List (String × Json) :=
  (result.bind schema.given?).getD []

/-- The exact sum of the numbers that a result gives for the counters. -/
def CommitPayload.reportedTotal (result : Option Json) : Nat :=
  (Counter.all.map (Counter.givenIn (given result))).sum

namespace CommitPayload

variable {result : Option Json} {p : CommitPayload} {k : Counter}

theorem givenIn_of_reads {given : List (String × Json)} {n : UInt64}
    (h : Schema.Reads Json.readUnsigned 0 (given.lookup k.name) n) :
    k.givenIn given = n.toNat := by
  rw [Counter.givenIn]
  rcases Schema.reads_unsigned_iff.1 h with hgiven | ⟨hnone, rfl⟩
  · rw [hgiven]
    exact Int.toNat_natCast _
  · rw [hnone]
    rfl

/-- Each counter of a payload is the number that is given for it. -/
theorem givenIn_of_read? (hordered : ∀ w, result = some w → w.IsOrdered)
    (h : schema.read? .defaults result = .ok p) (hk : k ∈ Counter.all) :
    k.givenIn (given result) = (k.of p.toResult).toNat := by
  have absent : given result = [] → p = .defaults →
      k.givenIn (given result) = (k.of p.toResult).toNat := by
    rintro hgiven rfl
    rw [hgiven, Counter.of_defaults hk]
    rfl
  unfold Schema.read? at h
  split at h
  · exact absent rfl (Except.ok.inj h).symm
  · exact absent rfl (Except.ok.inj h).symm
  · rename_i w _
    obtain ⟨values, hvalues, hread⟩ := (Schema.read_eq_ok_iff names_nodup).1 h
    have honce := isTime_time.nodup_of_read names_nodup (hordered w rfl) hvalues hread
    have hreads := (isField_counter hk).reads honce hread
    rw [Counter.of_defaults hk] at hreads
    have hgiven : given (some w) = values := by
      rw [given, Option.bind_some, hvalues, Option.getD_some]
    rw [hgiven]
    exact givenIn_of_reads hreads

theorem total_of_read? (hordered : ∀ w, result = some w → w.IsOrdered)
    (h : schema.read? .defaults result = .ok p) : p.toResult.total = reportedTotal result := by
  rw [← CommitResult.sum_counters, CommitResult.counters, List.map_map, reportedTotal]
  congr 1
  exact List.map_congr_left fun k hk => (givenIn_of_read? hordered h hk).symm

end CommitPayload

/-- The summary of a reply to a commit is that of its payload. -/
theorem Envelope.exists_payload_of_commit {e : Envelope} {command : String} {c : CommitResult}
    (hkind : e.kind = some "commit") (h : e.toResult command = .ok (.commit c)) :
    ∃ p, CommitPayload.schema.read? .defaults e.result = .ok p ∧ c = p.toResult := by
  obtain ⟨accepted, haccepted, hresult⟩ := exists_of_bind_ok h
  obtain ⟨-, rfl⟩ := of_ensureSuccess haccepted
  have hquery : ¬some "commit" = some "query" := by decide
  rw [hkind, if_neg hquery, if_pos rfl] at hresult
  obtain ⟨p, hpayload, hresult⟩ := exists_of_bind_ok hresult
  cases hresult
  exact ⟨p, read?_of_payload hpayload, rfl⟩

namespace CommitResult

/-- The affected rows of a summary are the exact sum of its six counters, as far as it fits
sixty-four bits. So they do not depend on the order of the counters, and grow with each of them. For
every reply line that is read as a summary they are the sum of the numbers in its result, cut in the
same way. -/
theorem affectedRows_eq_min_total (c : CommitResult) :
    c.affectedRows.toNat = min c.total (2 ^ 64 - 1) ∧
      (∀ d : CommitResult, d.counters.Perm c.counters → d.affectedRows = c.affectedRows) ∧
      (∀ d : CommitResult, (∀ k ∈ Counter.all, k.of c ≤ k.of d) →
        c.affectedRows ≤ d.affectedRows) ∧
      ∀ (line : Bytes) (command : String) (e : Envelope),
        Envelope.decode line command = .ok e → e.kind = some "commit" →
        e.toResult command = .ok (.commit c) →
          c.affectedRows.toNat = min (CommitPayload.reportedTotal e.result) (2 ^ 64 - 1) := by
  refine ⟨toNat_affectedRows c, ?_, ?_, ?_⟩
  · intro d hperm
    rw [← UInt64.toNat_inj, toNat_affectedRows, toNat_affectedRows, total_eq_of_perm hperm]
  · intro d hle
    have htotal := total_le_of_counters_le hle
    rw [UInt64.le_iff_toNat_le, toNat_affectedRows, toNat_affectedRows]
    omega
  · intro line command e hdecode hkind hresult
    have hordered := Envelope.isOrdered_of_read (Envelope.decode_eq_ok_iff.1 hdecode)
    obtain ⟨p, hread, rfl⟩ := Envelope.exists_payload_of_commit hkind hresult
    rw [← CommitPayload.total_of_read? hordered hread]
    exact toNat_affectedRows _

/-- Counters that do not fit sixty-four bits together are reported in one order or another; the
sum is the largest counter. -/
theorem affectedRows_of_overfull :
    let line := Utf8.encode ("\x7b\"success\":true,\"type\":\"commit\",\"result\":" ++
      "\x7b\"records_written\":18446744073709551615,\"records_deleted\":2\x7d\x7d")
    let c : CommitResult := ⟨0, 0, 0, 0, 18446744073709551615, 2, .zero⟩
    let d : CommitResult := ⟨2, 0, 18446744073709551615, 0, 0, 0, .ofInt 7⟩
    (Envelope.decode line "DELETE").bind (·.toResult "DELETE") = .ok (.commit c) ∧
      c.affectedRows = 18446744073709551615 ∧ d.affectedRows = c.affectedRows ∧
      none.affectedRows ≤ c.affectedRows := by
  intro line c d
  let e : Envelope := ⟨true, some "commit", some (.object [("records_deleted", .integer 2),
    ("records_written", .integer 18446744073709551615)]), .none⟩
  have hdecode : Envelope.decode line "DELETE" = .ok e := by rfl
  have hresult : e.toResult "DELETE" = .ok (.commit c) := by rfl
  have hreported : CommitPayload.reportedTotal e.result = 18446744073709551617 := by decide
  have hperm : d.counters.Perm c.counters := by decide
  have hle : ∀ k ∈ Counter.all, k.of none ≤ k.of c := by decide
  obtain ⟨-, horder, -, hline⟩ := affectedRows_eq_min_total c
  obtain ⟨-, -, hgrows, -⟩ := affectedRows_eq_min_total none
  have hcut := hline line "DELETE" e hdecode rfl hresult
  rw [hreported] at hcut
  refine ⟨?_, UInt64.toNat_inj.1 hcut, horder d hperm, hgrows c hle⟩
  rw [hdecode]
  exact hresult

end CommitResult

end DbClient
