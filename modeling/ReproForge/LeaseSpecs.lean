import ReproForge.Leases

/-!
# What the lease operations did

For each lease operation, the lemma about a run of it that succeeded: it left
the database alone, or it made one `JobWrite`.
-/
namespace ReproForge

open KeyedTable Transactions Transactions.Tx

variable {ρ σ : Type} [ResultDocument ρ] [RequestDocument σ] [Sha256]

theorem claimLease_ok {input : ClaimInput} {db db' : Db ρ σ} {reply : Option JobLease}
    (h : claimLease input db = (.ok reply, db')) :
    (reply = none ∧ db' = db) ∨
      ∃ j c, reply = some ⟨input.at', j.attempt + 1, input.expiresAt, input.jobId, input.ownerId,
          input.tenantId⟩ ∧
        JobWrite db db' ⟨input.tenantId, input.jobId⟩ ⟨input.tenantId, j.caseId⟩ j
          (j.claimed input.ownerId input.at' input.expiresAt) c (c.advanced input.at') := by
  simp only [claimLease, bind_ok, require_ok, read_ok] at h
  obtain ⟨_, _, ⟨-, rfl⟩, _, _, ⟨rfl, rfl⟩, h⟩ := h
  split at h
  · rename_i hactive
    simp only [bind_ok, require_ok] at h
    obtain ⟨_, _, ⟨-, rfl⟩, result, t, hu, h⟩ := h
    cases result with
    | none =>
      obtain ⟨hr, hd⟩ := pure_ok.mp h
      exact .inl ⟨hr, hd.trans (updateRow_none hu)⟩
    | some row =>
      simp only [bind_ok, demand_ok, require_ok, pure_ok] at h
      obtain ⟨v, _, ⟨hv, rfl⟩, _, t', hadv, attempt, _, ⟨ha, rfl⟩, _, _, ⟨hl, rfl⟩, hr, rfl⟩ := h
      obtain ⟨j, hj, hcl, hal, rfl, ht⟩ := updateJob_some hu
      obtain ⟨hv, -⟩ := integer_some.mp hv
      obtain ⟨ha, -⟩ := integer_some.mp ha
      obtain ⟨c, hc, hcv, hca, hb, hd⟩ := advanceCaseVersion_ok hadv
      subst hv; subst ha; subst ht; subst hd
      have hversion : c.version = j.version := by simpa [JobRow.claimed] using hcv
      refine .inr ⟨j, c, hr, ?_⟩
      exact {
        step := .claim input.ownerId input.at' input.expiresAt rfl hactive hcl hl
        job := hj
        case := hc
        tenant := rfl
        versions := hversion
        bounded := hversion ▸ hb
        jobAllowed := hal
        caseAllowed := hca
        result := by simp [JobRow.claimed, JobState.terminal, recoveredOutbox] }
  · obtain ⟨hr, hd⟩ := pure_ok.mp h
    exact .inl ⟨hr, hd⟩

theorem renewLease_ok {lease renewed : JobLease} {input : RenewInput} {db db' : Db ρ σ}
    (h : renewLease lease input db = (.ok renewed, db')) :
    renewed = { lease with expiresAt := input.expiresAt } ∧
      ∃ j c, (j.state = .running ∧ j.attempt = lease.attempt ∧ j.leaseExpiresAt = some lease.expiresAt) ∧
        JobWrite db db' ⟨lease.tenantId, lease.jobId⟩ ⟨lease.tenantId, j.caseId⟩ j
          (j.renewed input.expiresAt input.at') c (c.advanced input.at') := by
  simp only [renewLease, bind_ok, require_ok] at h
  obtain ⟨_, _, ⟨hl, rfl⟩, _, _, ⟨hi, rfl⟩, result, t, hu, h⟩ := h
  simp only [Bool.and_eq_true, decide_eq_true_eq] at hi
  obtain ⟨⟨⟨⟨hat, hexp⟩, hacq⟩, hbefore⟩, hlater⟩ := hi
  cases result with
  | none => exact absurd h (by simp)
  | some row =>
    simp only [bind_ok, demand_ok, require_ok, pure_ok] at h
    obtain ⟨v, _, ⟨hv, rfl⟩, _, t', hadv, _, _, ⟨-, rfl⟩, hr, rfl⟩ := h
    obtain ⟨j, hj, hw, hal, rfl, ht⟩ := updateJob_some hu
    obtain ⟨hv, -⟩ := integer_some.mp hv
    obtain ⟨c, hc, hcv, hca, hb, hd⟩ := advanceCaseVersion_ok hadv
    subst hv; subst ht; subst hd
    have hversion : c.version = j.version := by simpa [JobRow.renewed] using hcv
    simp only [Bool.and_eq_true, beq_iff_eq] at hw
    obtain ⟨⟨⟨howner, hattempt⟩, hstate⟩, hexpires⟩ := hw
    refine ⟨hr, j, c, ⟨hstate, hattempt, hexpires⟩, ?_⟩
    exact {
      step := .renew lease input.at' input.expiresAt rfl hl hstate howner hattempt hexpires hacq hbefore
        hlater hat hexp
      job := hj
      case := hc
      tenant := rfl
      versions := hversion
      bounded := hversion ▸ hb
      jobAllowed := hal
      caseAllowed := hca
      result := by simp [JobRow.renewed, hstate, JobState.terminal, recoveredOutbox] }

theorem completeLease_ok {lease : JobLease} {record reply : DurableReproductionRecord ρ σ}
    {db db' : Db ρ σ} (h : completeLease lease record db = (.ok reply, db')) :
    reply = { record with version := record.version + 1 } ∧
      ∃ j c, j.leasedBy lease = true ∧ ⟨lease.tenantId, lease.jobId⟩ = recordJobKey record ∧
        ⟨lease.tenantId, j.caseId⟩ = recordCaseKey record ∧
        JobWrite db db' ⟨lease.tenantId, lease.jobId⟩ ⟨lease.tenantId, j.caseId⟩ j
          (j.completed record) c (c.rewritten record) := by
  simp only [completeLease, bind_ok, require_ok, read_ok, pure_ok] at h
  obtain ⟨_, _, ⟨hl, rfl⟩, _, _, ⟨hrec, rfl⟩, _, _, ⟨halign, rfl⟩, _, _, ⟨rfl, rfl⟩, _, _,
    ⟨hbundle, rfl⟩, _, t, hsaveCase, _, t₁, hsaveJob, _, t₂, hrel, hr, rfl⟩ := h
  obtain ⟨c, hc, hcw, hca, hcb, ht⟩ := saveCase_ok hsaveCase
  subst ht
  obtain ⟨j, hj, hjw, hja, -, ht⟩ := saveJob_ok hsaveJob
  subst ht
  have hd := releaseActiveJobQuota_ok hrel
  subst hd
  simp only [Bool.and_eq_true, Bool.or_eq_true, beq_iff_eq, Option.isNone_iff_eq_none] at halign hcw hjw
  obtain ⟨⟨⟨htenant, hjob⟩, hattempt⟩, hstate⟩ := halign
  obtain ⟨⟨⟨⟨hjver, hleased⟩, hcase⟩, hjattempt⟩, hflag⟩ := hjw
  have hterminal : (j.completed record).state.terminal = true := by
    rcases hstate with hs | hs <;> simp [JobRow.completed, hs, JobState.terminal]
  have hnotqueued : (j.completed record).state ≠ .queued := by
    rcases hstate with hs | hs <;> simp [JobRow.completed, hs]
  rw [htenant, ← hcase] at hc hca
  refine ⟨hr, j, c, hleased, by rw [recordJobKey, htenant, hjob], by rw [recordCaseKey, htenant, hcase], ?_⟩
  exact {
    step := .complete lease record rfl hcase.symm htenant hjob hjver.symm hrec hl hleased hjattempt.symm hflag
      hstate (by
        intro hs hv
        rw [← htenant, hcase]
        simpa [hs, hv] using hbundle)
    job := hj
    case := hc
    tenant := rfl
    versions := hcw.trans hjver.symm
    bounded := hjver ▸ hcb
    jobAllowed := hja
    caseAllowed := hca
    result := by
      rw [if_pos hterminal, recoveredOutbox, if_neg (fun hq => hnotqueued hq.2), htenant, ← hcase]
      rfl }

omit [Sha256] in
theorem rowToRecord_caseId {row : DurableRow ρ σ} {record : DurableReproductionRecord ρ σ}
    (h : rowToRecord row = some record) :
    record.caseId = row.idempotency.caseId ∧ record.version = row.case.version := by
  obtain ⟨_, -, -, -, -, -, -, -, rfl, -⟩ := rowToRecord_some.mp h
  exact ⟨rfl, rfl⟩

omit [Sha256] in
theorem findByLease_some {lease : JobLease} {db db' : Db ρ σ} {record : DurableReproductionRecord ρ σ}
    (h : findByLease lease db = (.ok (some record), db')) :
    db' = db ∧ ∃ row, Joined db row ∧ row.jobKey = ⟨lease.tenantId, lease.jobId⟩ ∧
      row.job.leasedBy lease = true ∧ rowToRecord row = some record := by
  simp only [findByLease, bind_ok, require_ok] at h
  obtain ⟨_, _, ⟨-, rfl⟩, h⟩ := h
  obtain ⟨hd, row, hrow, hw, hr⟩ := find_some h
  simp only [Bool.and_eq_true, beq_iff_eq] at hw
  refine ⟨hd, row, hrow, ?_, hw.2, hr⟩
  rw [DurableRow.jobKey, hw.1.1, ← hw.1.2]
  rfl

theorem cancelLeaseInTransaction_ok {lease : JobLease} {at' : Instant}
    {reply : DurableReproductionRecord ρ σ} {db db' : Db ρ σ} (hvalid : lease.valid = true)
    (hat : datetime at' = true) (hacq : lease.acquiredAt ≤ at')
    (h : cancelLeaseInTransaction lease at' db = (.ok reply, db')) :
    ∃ j c cancelled, j.leasedBy lease = true ∧ SameDomain c (c.cancelled cancelled at') ∧
      JobWrite db db' ⟨lease.tenantId, lease.jobId⟩ ⟨lease.tenantId, j.caseId⟩ j
        (j.cancelledRunning at') c (c.cancelled cancelled at') := by
  simp only [cancelLeaseInTransaction, bind_ok, require_ok, read_ok, pure_ok, demand_ok] at h
  obtain ⟨_, _, ⟨rfl, rfl⟩, version, t, hver, _, _, ⟨hpos, rfl⟩, _, _, hfind, record, _, ⟨rfl, rfl⟩, _, _,
    ⟨hrver, rfl⟩, cancelledRecord, _, ⟨hcancel, rfl⟩, _, t₁, hsaveCase, _, t₂, hsaveJob, _, t₃, hrel, -,
    rfl⟩ := h
  obtain ⟨hver, rfl⟩ := demand_ok.mp hver
  obtain ⟨rfl, row, hrow, hkey, -, hrecord⟩ := findByLease_some hfind
  obtain ⟨c, hc, hcw, hca, hcb, ht⟩ := saveCase_ok hsaveCase
  subst ht
  obtain ⟨j, hj, hjw, hja, -, ht⟩ := saveJob_ok hsaveJob
  subst ht
  have hd := releaseActiveJobQuota_ok hrel
  subst hd
  simp only [Bool.and_eq_true, beq_iff_eq] at hcw hjw hrver
  obtain ⟨⟨hleased, hflag⟩, hjver⟩ := hjw
  have hjob : row.job = j := Option.some.inj ((hkey ▸ hrow.job).symm.trans hj)
  have hrcase := (rowToRecord_caseId hrecord).1
  have hcaseId : record.caseId = j.caseId := by rw [hrcase, ← hrow.caseId, hjob]
  have hcaseKey : row.caseKey = ⟨lease.tenantId, record.caseId⟩ := by
    have htenant : row.key.tenantId = lease.tenantId := congrArg Key.tenantId hkey
    rw [DurableRow.caseKey, hrcase, htenant]
  have hcase : row.case = c := Option.some.inj ((hcaseKey ▸ hrow.case).symm.trans hc)
  rw [hcaseId] at hc hca
  refine ⟨j, c, cancelledRecord, hleased, hcase ▸ sameDomain_cancelled hrecord hcancel, ?_⟩
  exact {
    step := .cancelRunning lease row record cancelledRecord at' rfl hvalid hleased hflag hacq hrow hkey
      hjob hcase hrecord hcancel hat
    job := hj
    case := hc
    tenant := rfl
    versions := hcw.trans hjver.symm
    bounded := hjver ▸ hcb
    jobAllowed := hja
    caseAllowed := hca
    result := by simp [JobRow.cancelledRunning, JobState.terminal, recoveredOutbox, hcaseId] }

theorem cancelLease_ok {lease : JobLease} {at' : Instant} {reply : DurableReproductionRecord ρ σ}
    {db db' : Db ρ σ} (h : cancelLease lease at' db = (.ok reply, db')) :
    ∃ j c cancelled, j.leasedBy lease = true ∧ SameDomain c (c.cancelled cancelled at') ∧
      JobWrite db db' ⟨lease.tenantId, lease.jobId⟩ ⟨lease.tenantId, j.caseId⟩ j
        (j.cancelledRunning at') c (c.cancelled cancelled at') := by
  simp only [cancelLease, bind_ok, require_ok, Bool.and_eq_true, decide_eq_true_eq] at h
  obtain ⟨_, _, ⟨hl, rfl⟩, _, _, ⟨⟨hat, hacq⟩, rfl⟩, h⟩ := h
  exact cancelLeaseInTransaction_ok hl hat hacq h

omit [ResultDocument ρ] [RequestDocument σ] [Sha256] in
theorem storedFailure_none {failure : LeaseFailure} {attempt maxAttempts : Nat}
    (h : storedFailure failure attempt maxAttempts = none) : attempt < maxAttempts := by
  simp only [storedFailure] at h
  split at h
  · rename_i hc
    simp only [Bool.and_eq_true, decide_eq_true_eq] at hc
    exact hc.2
  · split at h <;> cases h

omit [ResultDocument ρ] [RequestDocument σ] [Sha256] in
theorem storedFailure_some {failure : LeaseFailure} {attempt maxAttempts : Nat} {stored : JobFailure}
    (hcode : isFailureCode failure.code = true)
    (h : storedFailure failure attempt maxAttempts = some stored) :
    stored = exhaustedFailure ∧ maxAttempts ≤ attempt ∨
      ∃ code, stored = workerFailure code ∧ isFailureCode code = true := by
  simp only [storedFailure] at h
  split at h
  · cases h
  · rename_i hc
    split at h
    · rename_i hr
      cases h
      left
      refine ⟨rfl, ?_⟩
      simp only [hr, Bool.true_and, decide_eq_true_eq] at hc
      omega
    · cases h
      exact .inr ⟨_, rfl, hcode⟩

/-- The job write of each disposition of a failed lease. -/
inductive FailWrite (lease : JobLease) (failure : LeaseFailure) (db db' : Db ρ σ) :
    LeaseFailureDisposition → Prop where
  | cancelled {j c record} : j.leasedBy lease = true → SameDomain c (c.cancelled record failure.at') →
      JobWrite db db' ⟨lease.tenantId, lease.jobId⟩ ⟨lease.tenantId, j.caseId⟩ j
        (j.cancelledRunning failure.at') c (c.cancelled record failure.at') →
      FailWrite lease failure db db' .cancelled
  | requeued {j c} : j.leasedBy lease = true →
      JobWrite db db' ⟨lease.tenantId, lease.jobId⟩ ⟨lease.tenantId, j.caseId⟩ j
        (j.failed none failure.nextAttemptAt failure.at') c (c.advanced failure.at') →
      FailWrite lease failure db db' .requeued
  | exhausted {j c s} : j.leasedBy lease = true →
      JobWrite db db' ⟨lease.tenantId, lease.jobId⟩ ⟨lease.tenantId, j.caseId⟩ j
        (j.failed (some s) failure.nextAttemptAt failure.at') c (c.advanced failure.at') →
      FailWrite lease failure db db' .exhausted

theorem failLease_ok {lease : JobLease} {failure : LeaseFailure} {disposition : LeaseFailureDisposition}
    {db db' : Db ρ σ} (h : failLease lease failure db = (.ok disposition, db')) :
    FailWrite lease failure db db' disposition := by
  simp only [failLease, bind_ok, require_ok, read_ok, demand_ok] at h
  obtain ⟨_, _, ⟨hl, rfl⟩, _, _, ⟨hin, rfl⟩, _, _, ⟨rfl, rfl⟩, row, _, ⟨hrow, rfl⟩, h⟩ := h
  simp only [Bool.and_eq_true, decide_eq_true_eq] at hin
  obtain ⟨⟨⟨⟨hat, hnext⟩, hacq⟩, horder⟩, hcode⟩ := hin
  obtain ⟨hrow, hleased⟩ := Option.filter_eq_some_iff.mp hrow
  split at h
  · simp only [bind_ok, pure_ok] at h
    obtain ⟨record, t, hcancel, rfl, rfl⟩ := h
    obtain ⟨j, c, cancelled, hheld, hdomain, hw⟩ := cancelLeaseInTransaction_ok hl hat hacq hcancel
    exact .cancelled hheld hdomain hw
  · rename_i hflag
    have hflag : row.cancellationRequestedAt = none := by simpa using hflag
    simp only [bind_ok, demand_ok] at h
    obtain ⟨attempt, _, ⟨ha, rfl⟩, maxAttempts, _, ⟨hm, rfl⟩, previous, _, ⟨hp, rfl⟩, _, t, hsaveJob, _, t₁,
      hadv, h⟩ := h
    obtain ⟨rfl, -⟩ := integer_some.mp ha
    obtain ⟨rfl, -⟩ := integer_some.mp hm
    obtain ⟨rfl, -⟩ := integer_some.mp hp
    obtain ⟨j, hj, hjw, hja, hb, ht⟩ := saveJob_ok hsaveJob
    have hjrow : j = row := Option.some.inj (hj.symm.trans hrow)
    subst hjrow; subst ht
    obtain ⟨c, hc, hcv, hca, -, ht⟩ := advanceCaseVersion_ok hadv
    subst ht
    obtain ⟨hrunning, -, hattempt, -, -⟩ := JobRow.leasedBy_iff.mp hleased
    cases hstored : storedFailure failure j.attempt j.maxAttempts with
    | none =>
      simp only [hstored, bind_ok, require_ok, pure_ok] at h hja
      obtain ⟨_, _, ⟨-, rfl⟩, _, t₃, hins, rfl, rfl⟩ := h
      refine .requeued (j := j) (c := c) hleased ?_
      exact {
        step := .requeue lease failure.nextAttemptAt failure.at' rfl hl hleased hflag
          (storedFailure_none hstored) hacq horder hat hnext
        job := hj
        case := hc
        tenant := rfl
        versions := hcv
        bounded := hb
        jobAllowed := hja
        caseAllowed := hca
        result := by
          rw [recoveredOutbox, if_pos ⟨hrunning, rfl⟩, insertOutboxEventOrIgnore_result hins]
          simp [JobRow.failed, JobState.terminal, recoveryEvent, recoveryMessage, hattempt] }
    | some stored =>
      simp only [hstored, bind_ok, pure_ok] at h hja
      obtain ⟨_, t₃, hrel, rfl, rfl⟩ := h
      have hd := releaseActiveJobQuota_ok hrel
      subst hd
      refine .exhausted (j := j) (c := c) hleased (s := stored) ?_
      exact {
        step := .exhaust lease stored failure.nextAttemptAt failure.at' rfl hl hleased hflag hacq horder hat
          (storedFailure_some hcode hstored)
        job := hj
        case := hc
        tenant := rfl
        versions := hcv
        bounded := hb
        jobAllowed := hja
        caseAllowed := hca
        result := by simp [JobRow.failed, JobState.terminal, recoveredOutbox] }

end ReproForge
