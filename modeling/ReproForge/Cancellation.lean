import ReproForge.LeaseSpecs

/-!
# Cancellation requests

`requestCancellation` flags a running job and cancels a queued one on the spot.
-/
namespace ReproForge

open KeyedTable Transactions Transactions.Tx

variable {ρ σ : Type} [ResultDocument ρ] [RequestDocument σ]

/-- Some idempotency key of the caller leads to the job. -/
def callerOwnsJob (db : Db ρ σ) (scope : TenantScope) (jobId : String) : Bool :=
  (db.idempotencyKeys.find? (fun key i =>
    key.tenantId == scope.tenantId && key.callerId == scope.callerId && i.jobId == jobId)).isSome

def selectForCancellation (db : Db ρ σ) (scope : TenantScope) (jobId : String) : Option JobRow :=
  (db.jobs.get ⟨scope.tenantId, jobId⟩).filter (fun _ => callerOwnsJob db scope jobId)

def requestRunningCancellation (scope : TenantScope) (jobId : String)
    (record : DurableReproductionRecord ρ σ) (at' : Instant) :
    Statement ρ σ (Option CancellationRequestResult) := do
  saveJob ⟨scope.tenantId, jobId⟩
    (fun j => j.version == record.version && j.state == .running && j.cancellationRequestedAt.isNone)
    (JobRow.cancellationRequested at') record.version .optimisticConcurrency
  advanceCaseVersion scope.tenantId record.caseId record.version at'
  pure (some ⟨record.caseId, true, .requested⟩)

def cancelQueuedJob (scope : TenantScope) (jobId : String) (record : DurableReproductionRecord ρ σ)
    (at' : Instant) : Statement ρ σ (Option CancellationRequestResult) := do
  let cancelledRecord ← demand (cancelRecord record at') .schema
  saveCase ⟨scope.tenantId, record.caseId⟩ (fun c => c.version == record.version)
    (CaseRow.cancelled cancelledRecord at') record.version .optimisticConcurrency
  saveJob ⟨scope.tenantId, jobId⟩ (fun j => j.version == record.version && j.state == .queued)
    (JobRow.cancelledQueued at') record.version .optimisticConcurrency
  releaseActiveJobQuota scope.tenantId jobId at'
  pure (some ⟨record.caseId, true, .cancelled⟩)

/-- A job that is neither over nor already flagged. -/
def cancelActiveJob (scope : TenantScope) (jobId : String) (selected : JobRow) (requestedAt : Instant) :
    Statement ρ σ (Option CancellationRequestResult) := do
  let found ← findByJobId scope jobId
  let record ← demand found .corruptDurableRecord
  let version ← demand (integer selected.version) .corruptDurableRecord
  require (record.version == version) .corruptDurableRecord
  require (record.createdAt ≤ requestedAt) .invalidDurableRecord
  if selected.state = .running then requestRunningCancellation scope jobId record requestedAt
  else cancelQueuedJob scope jobId record requestedAt

def requestCancellation (scope : TenantScope) (jobId : String) (requestedAt : Instant) :
    Statement ρ σ (Option CancellationRequestResult) := do
  require scope.valid .schema
  require (datetime requestedAt && opaqueId jobId) .invalidDurableRecord
  let db ← read
  match selectForCancellation db scope jobId with
  | none => pure none
  | some selected =>
    match selected.state with
    | .cancelled => pure (some ⟨selected.caseId, false, .cancelled⟩)
    | .running =>
      if selected.cancellationRequestedAt.isSome then pure (some ⟨selected.caseId, false, .requested⟩)
      else cancelActiveJob scope jobId selected requestedAt
    | .queued => cancelActiveJob scope jobId selected requestedAt
    | .succeeded | .failed => pure none

def isCancellationRequested (lease : JobLease) : Statement ρ σ Bool := do
  require lease.valid .schema
  let db ← read
  pure (((db.jobs.get ⟨lease.tenantId, lease.jobId⟩).filter (fun j => j.leasedBy lease)).any
    (fun j => j.cancellationRequestedAt.isSome))

variable [Sha256]

omit [Sha256] in
theorem findByJobId_some {scope : TenantScope} {jobId : String} {db db' : Db ρ σ}
    {record : DurableReproductionRecord ρ σ} (h : findByJobId scope jobId db = (.ok (some record), db')) :
    db' = db ∧ ∃ row, Joined db row ∧ row.jobKey = ⟨scope.tenantId, jobId⟩ ∧
      rowToRecord row = some record := by
  simp only [findByJobId, bind_ok, require_ok] at h
  obtain ⟨_, _, ⟨-, rfl⟩, h⟩ := h
  obtain ⟨hd, row, hrow, hw, hr⟩ := find_some h
  simp only [Bool.and_eq_true, beq_iff_eq] at hw
  refine ⟨hd, row, hrow, ?_, hr⟩
  rw [DurableRow.jobKey, hw.1.1, ← hw.2]
  rfl

/-- What a cancellation request that changed something did to the job. -/
inductive RequestWrite (scope : TenantScope) (jobId : String) (at' : Instant) (db db' : Db ρ σ) :
    CancellationDisposition → Prop where
  | requested {j c} : j.state = .running →
      JobWrite db db' ⟨scope.tenantId, jobId⟩ ⟨scope.tenantId, j.caseId⟩ j
        (j.cancellationRequested at') c (c.advanced at') →
      RequestWrite scope jobId at' db db' .requested
  | cancelled {j c r} : SameDomain c (c.cancelled r at') →
      JobWrite db db' ⟨scope.tenantId, jobId⟩ ⟨scope.tenantId, j.caseId⟩ j
        (j.cancelledQueued at') c (c.cancelled r at') →
      RequestWrite scope jobId at' db db' .cancelled

theorem requestRunningCancellation_ok {scope : TenantScope} {jobId : String}
    {record : DurableReproductionRecord ρ σ} {row : DurableRow ρ σ} {at' : Instant}
    {reply : Option CancellationRequestResult} {db db' : Db ρ σ} (hrow : Joined db row)
    (hkey : row.jobKey = ⟨scope.tenantId, jobId⟩) (hrecord : rowToRecord row = some record)
    (hat : datetime at' = true)
    (h : requestRunningCancellation scope jobId record at' db = (.ok reply, db')) :
    reply = some ⟨record.caseId, true, .requested⟩ ∧ RequestWrite scope jobId at' db db' .requested := by
  simp only [requestRunningCancellation, bind_ok, pure_ok] at h
  obtain ⟨_, t, hsaveJob, _, t₁, hadv, hr, rfl⟩ := h
  obtain ⟨j, hj, hjw, hja, hb, ht⟩ := saveJob_ok hsaveJob
  subst ht
  obtain ⟨c, hc, hcv, hca, -, ht⟩ := advanceCaseVersion_ok hadv
  subst ht
  simp only [Bool.and_eq_true, beq_iff_eq, Option.isNone_iff_eq_none] at hjw
  obtain ⟨⟨hjver, hstate⟩, hflag⟩ := hjw
  have hjob : row.job = j := Option.some.inj ((hkey ▸ hrow.job).symm.trans hj)
  have hcaseId : record.caseId = j.caseId := by
    rw [(rowToRecord_caseId hrecord).1, ← hrow.caseId, hjob]
  rw [hcaseId] at hc hca
  refine ⟨hr, .requested (j := j) (c := c) hstate ?_⟩
  exact {
    step := .request at' rfl hstate hflag hat
    job := hj
    case := hc
    tenant := rfl
    versions := hcv.trans hjver.symm
    bounded := hjver ▸ hb
    jobAllowed := hja
    caseAllowed := hca
    result := by
      simp [JobRow.cancellationRequested, hstate, JobState.terminal, recoveredOutbox, hcaseId] }

theorem cancelQueuedJob_ok {scope : TenantScope} {jobId : String}
    {record : DurableReproductionRecord ρ σ} {row : DurableRow ρ σ} {at' : Instant}
    {reply : Option CancellationRequestResult} {db db' : Db ρ σ} (hrow : Joined db row)
    (hkey : row.jobKey = ⟨scope.tenantId, jobId⟩) (hrecord : rowToRecord row = some record)
    (hat : datetime at' = true)
    (h : cancelQueuedJob scope jobId record at' db = (.ok reply, db')) :
    reply = some ⟨record.caseId, true, .cancelled⟩ ∧ RequestWrite scope jobId at' db db' .cancelled := by
  simp only [cancelQueuedJob, bind_ok, pure_ok, demand_ok] at h
  obtain ⟨cancelledRecord, _, ⟨hcancel, rfl⟩, _, t₁, hsaveCase, _, t₂, hsaveJob, _, t₃, hrel, hr, rfl⟩ := h
  obtain ⟨c, hc, hcw, hca, hcb, ht⟩ := saveCase_ok hsaveCase
  subst ht
  obtain ⟨j, hj, hjw, hja, -, ht⟩ := saveJob_ok hsaveJob
  subst ht
  have hd := releaseActiveJobQuota_ok hrel
  subst hd
  simp only [Bool.and_eq_true, beq_iff_eq] at hcw hjw
  obtain ⟨hjver, hstate⟩ := hjw
  have hjob : row.job = j := Option.some.inj ((hkey ▸ hrow.job).symm.trans hj)
  have hrcase := (rowToRecord_caseId hrecord).1
  have hcaseId : record.caseId = j.caseId := by rw [hrcase, ← hrow.caseId, hjob]
  have hcaseKey : row.caseKey = ⟨scope.tenantId, record.caseId⟩ := by
    have htenant : row.key.tenantId = scope.tenantId := congrArg Key.tenantId hkey
    rw [DurableRow.caseKey, hrcase, htenant]
  have hcase : row.case = c := Option.some.inj ((hcaseKey ▸ hrow.case).symm.trans hc)
  rw [hcaseId] at hc hca
  refine ⟨hr, .cancelled (j := j) (c := c) (r := cancelledRecord) (hcase ▸ sameDomain_cancelled hrecord hcancel) ?_⟩
  exact {
    step := .cancelQueued row record cancelledRecord at' rfl hstate hrow hkey hjob hcase hrecord hcancel hat
    job := hj
    case := hc
    tenant := rfl
    versions := hcw.trans hjver.symm
    bounded := hjver ▸ hcb
    jobAllowed := hja
    caseAllowed := hca
    result := by simp [JobRow.cancelledQueued, JobState.terminal, recoveredOutbox, hcaseId] }

theorem cancelActiveJob_ok {scope : TenantScope} {jobId : String} {selected : JobRow}
    {at' : Instant} {reply : Option CancellationRequestResult} {db db' : Db ρ σ}
    (hat : datetime at' = true) (h : cancelActiveJob scope jobId selected at' db = (.ok reply, db')) :
    ∃ caseId disposition, reply = some ⟨caseId, true, disposition⟩ ∧
      RequestWrite scope jobId at' db db' disposition := by
  simp only [cancelActiveJob, bind_ok, require_ok, demand_ok] at h
  obtain ⟨_, t, hfind, record, _, ⟨rfl, rfl⟩, _, _, ⟨-, rfl⟩, _, _, ⟨-, rfl⟩, _, _, ⟨-, rfl⟩, h⟩ := h
  obtain ⟨rfl, row, hrow, hkey, hrecord⟩ := findByJobId_some hfind
  split at h
  · exact ⟨_, _, requestRunningCancellation_ok hrow hkey hrecord hat h⟩
  · exact ⟨_, _, cancelQueuedJob_ok hrow hkey hrecord hat h⟩

/-- A reply to a cancellation request, and the state of the job behind it. -/
theorem requestCancellation_ok {scope : TenantScope} {jobId : String} {at' : Instant}
    {reply : Option CancellationRequestResult} {db db' : Db ρ σ}
    (h : requestCancellation scope jobId at' db = (.ok reply, db')) :
    (reply = none ∧ db' = db) ∨
    (∃ j disposition, reply = some ⟨j.caseId, false, disposition⟩ ∧ db' = db ∧
      db.jobs.get ⟨scope.tenantId, jobId⟩ = some j ∧
      (disposition = .cancelled ∧ j.state = .cancelled ∨
        disposition = .requested ∧ j.state = .running ∧ j.cancellationRequestedAt.isSome = true)) ∨
    ∃ caseId disposition, reply = some ⟨caseId, true, disposition⟩ ∧
      RequestWrite scope jobId at' db db' disposition := by
  simp only [requestCancellation, bind_ok, require_ok, read_ok] at h
  obtain ⟨_, _, ⟨-, rfl⟩, _, _, ⟨hat, rfl⟩, _, _, ⟨rfl, rfl⟩, h⟩ := h
  simp only [Bool.and_eq_true] at hat
  cases hs : selectForCancellation db scope jobId with
  | none =>
    simp only [hs, pure_ok] at h
    exact .inl h
  | some selected =>
    have hj := (Option.filter_eq_some_iff.mp hs).1
    simp only [hs] at h
    cases hstate : selected.state with
    | cancelled =>
      simp only [hstate, pure_ok] at h
      exact .inr (.inl ⟨selected, _, h.1, h.2, hj, .inl ⟨rfl, hstate⟩⟩)
    | running =>
      simp only [hstate] at h
      split at h
      · rename_i hflag
        obtain ⟨hr, hd⟩ := pure_ok.mp h
        exact .inr (.inl ⟨selected, _, hr, hd, hj, .inr ⟨rfl, hstate, hflag⟩⟩)
      · exact .inr (.inr (cancelActiveJob_ok hat.1 h))
    | queued =>
      simp only [hstate] at h
      exact .inr (.inr (cancelActiveJob_ok hat.1 h))
    | succeeded =>
      simp only [hstate, pure_ok] at h
      exact .inl h
    | failed =>
      simp only [hstate, pure_ok] at h
      exact .inl h

end ReproForge
