import ReproForge.JobUpdates

/-!
# Lease operations

Claiming, renewing, completing, failing, cancelling and recovering the lease of
a job, as one transaction each. The checks on the arguments come first and read
nothing from the database.
-/
namespace ReproForge

open KeyedTable Transactions Transactions.Tx

variable {ρ σ : Type} [ResultDocument ρ] [RequestDocument σ]

/-! ## Shared statements -/

/-- `integer(result.rows[0]?.version ?? 0)` -/
def returnedVersion (version : Option Nat) : Statement ρ σ Nat :=
  demand (integer (version.getD 0)) .corruptDurableRecord

/-- An update that must return the version after `expected`. -/
def saveCase (key : Key) (condition : CaseRow ρ σ → Bool) (assign : CaseRow ρ σ → CaseRow ρ σ)
    (expected : Nat) (e : DurableError) : Statement ρ σ Unit := do
  let saved ← updateCase key condition assign
  let version ← returnedVersion (saved.map CaseRow.version)
  require (version == expected + 1) e

def saveJob (key : Key) (condition : JobRow → Bool) (assign : JobRow → JobRow) (expected : Nat)
    (e : DurableError) : Statement ρ σ Unit := do
  let saved ← updateJob key condition assign
  let version ← returnedVersion (saved.map JobRow.version)
  require (version == expected + 1) e

def advanceCaseVersion (tenantId caseId : String) (expectedVersion : Nat) (updatedAt : Instant) :
    Statement ρ σ Unit :=
  saveCase ⟨tenantId, caseId⟩ (fun c => c.version == expectedVersion) (CaseRow.advanced updatedAt)
    expectedVersion .optimisticConcurrency

def releaseActiveJobQuota (tenantId jobId : String) (at' : Instant) : Statement ρ σ Unit :=
  updateQuotas (activeJobReservation tenantId jobId) (QuotaRow.released at')

omit [ResultDocument ρ] [RequestDocument σ] in
/-- A returned version that a successor test accepted comes from a row. -/
theorem returnedVersion_succ {version : Option Nat} {expected v : Nat} {db db' : Db ρ σ}
    (h : returnedVersion version db = (.ok v, db')) (he : (v == expected + 1) = true) :
    db' = db ∧ version = some (expected + 1) ∧ expected < maxSafeInteger := by
  obtain ⟨hv, hd⟩ := demand_ok.mp h
  obtain ⟨hv, hb⟩ := integer_some.mp hv
  have hsucc : v = expected + 1 := by simpa using he
  cases version with
  | none =>
    simp only [Option.getD_none] at hv
    omega
  | some n =>
    simp only [Option.getD_some] at hv hb
    refine ⟨hd.symm, ?_, by omega⟩
    rw [← hsucc, hv]

omit [ResultDocument ρ] [RequestDocument σ] in
theorem saveCase_ok {key : Key} {condition : CaseRow ρ σ → Bool} {assign : CaseRow ρ σ → CaseRow ρ σ}
    {expected : Nat} {e : DurableError} {db db' : Db ρ σ} {u : Unit}
    (h : saveCase key condition assign expected e db = (.ok u, db')) :
    ∃ c, db.cases.get key = some c ∧ condition c = true ∧ caseUpdateAllowed key c (assign c) = true ∧
      expected < maxSafeInteger ∧ db' = { db with cases := db.cases.set key (assign c) } := by
  simp only [saveCase, bind_ok, require_ok] at h
  obtain ⟨saved, t, hu, v, t', hv, he, rfl⟩ := h
  obtain ⟨rfl, hsome, hb⟩ := returnedVersion_succ hv he
  obtain ⟨row, rfl, -⟩ := Option.map_eq_some_iff.mp hsome
  obtain ⟨c, hc, hw, ha, -, hd⟩ := updateCase_some hu
  exact ⟨c, hc, hw, ha, hb, hd⟩

omit [ResultDocument ρ] [RequestDocument σ] in
theorem saveJob_ok {key : Key} {condition : JobRow → Bool} {assign : JobRow → JobRow} {expected : Nat}
    {e : DurableError} {db db' : Db ρ σ} {u : Unit}
    (h : saveJob key condition assign expected e db = (.ok u, db')) :
    ∃ j, db.jobs.get key = some j ∧ condition j = true ∧ jobUpdateAllowed key j (assign j) = true ∧
      expected < maxSafeInteger ∧ db' = { db with jobs := db.jobs.set key (assign j) } := by
  simp only [saveJob, bind_ok, require_ok] at h
  obtain ⟨saved, t, hu, v, t', hv, he, rfl⟩ := h
  obtain ⟨rfl, hsome, hb⟩ := returnedVersion_succ hv he
  obtain ⟨row, rfl, -⟩ := Option.map_eq_some_iff.mp hsome
  obtain ⟨j, hj, hw, ha, -, hd⟩ := updateJob_some hu
  exact ⟨j, hj, hw, ha, hb, hd⟩

omit [ResultDocument ρ] [RequestDocument σ] in
theorem advanceCaseVersion_ok {tenantId caseId : String} {expectedVersion : Nat} {updatedAt : Instant}
    {db db' : Db ρ σ} {u : Unit}
    (h : advanceCaseVersion tenantId caseId expectedVersion updatedAt db = (.ok u, db')) :
    ∃ c, db.cases.get ⟨tenantId, caseId⟩ = some c ∧ c.version = expectedVersion ∧
      caseUpdateAllowed ⟨tenantId, caseId⟩ c (c.advanced updatedAt) = true ∧
      c.version < maxSafeInteger ∧
      db' = { db with cases := db.cases.set ⟨tenantId, caseId⟩ (c.advanced updatedAt) } := by
  obtain ⟨c, hc, hw, ha, hb, hd⟩ := saveCase_ok h
  have hv : c.version = expectedVersion := by simpa using hw
  exact ⟨c, hc, hv, ha, hv ▸ hb, hd⟩

omit [ResultDocument ρ] [RequestDocument σ] in
theorem releaseActiveJobQuota_ok {tenantId jobId : String} {at' : Instant} {db db' : Db ρ σ} {u : Unit}
    (h : releaseActiveJobQuota tenantId jobId at' db = (.ok u, db')) :
    db' = { db with quotaLedger := releasedQuotas tenantId jobId at' db.quotaLedger } :=
  (updateQuotas_ok h).2

/-! ## Claiming -/

structure ClaimInput where
  at' : Instant
  jobId : String
  leaseSeconds : Int
  ownerId : String
  tenantId : String
  deriving DecidableEq, Repr

def ClaimInput.expiresAt (input : ClaimInput) : Instant := input.at' + input.leaseSeconds * 1000

def claimLease (input : ClaimInput) : Statement ρ σ (Option JobLease) := do
  require (datetime input.at' && 1 ≤ input.leaseSeconds && input.leaseSeconds ≤ 3600) .leaseOwnership
  let db ← read
  if tenantActive db input.tenantId then
    -- a year past 9999 is not a literal that the server reads
    require (datetime input.expiresAt) .constraint
    match ← updateJob ⟨input.tenantId, input.jobId⟩ (JobRow.claimable input.at')
        (JobRow.claimed input.ownerId input.at' input.expiresAt) with
    | none => pure none
    | some row =>
      let version ← demand (integer row.version) .corruptDurableRecord
      advanceCaseVersion input.tenantId row.caseId (version - 1) input.at'
      let attempt ← demand (integer row.attempt) .corruptDurableRecord
      let lease : JobLease :=
        ⟨input.at', attempt, input.expiresAt, input.jobId, input.ownerId, input.tenantId⟩
      require lease.valid .schema
      pure (some lease)
  else pure none

/-! ## Renewing -/

structure RenewInput where
  at' : Instant
  expiresAt : Instant
  deriving DecidableEq, Repr

def renewLease (lease : JobLease) (input : RenewInput) : Statement ρ σ JobLease := do
  require lease.valid .schema
  require (datetime input.at' && datetime input.expiresAt && lease.acquiredAt ≤ input.at' &&
    input.at' < lease.expiresAt && lease.expiresAt < input.expiresAt) .leaseOwnership
  -- the one lease test that leaves the acquisition time out
  match ← updateJob ⟨lease.tenantId, lease.jobId⟩
      (fun j => j.leaseOwner == some lease.ownerId && j.attempt == lease.attempt &&
        j.state == .running && j.leaseExpiresAt == some lease.expiresAt)
      (JobRow.renewed input.expiresAt input.at') with
  | none => fail .leaseOwnership
  | some row =>
    let version ← demand (integer row.version) .corruptDurableRecord
    advanceCaseVersion lease.tenantId row.caseId (version - 1) input.at'
    let renewed : JobLease := { lease with expiresAt := input.expiresAt }
    require renewed.valid .schema
    pure renewed

/-! ## Completing -/

def completeLease (lease : JobLease) (record : DurableReproductionRecord ρ σ) :
    Statement ρ σ (DurableReproductionRecord ρ σ) := do
  require lease.valid .schema
  require (validateRecord record false) .invalidDurableRecord
  require (record.tenantId == lease.tenantId && record.jobId == lease.jobId &&
    record.snapshot.job.attempt == lease.attempt &&
    (record.snapshot.job.state == .succeeded || record.snapshot.job.state == .failed)) .leaseOwnership
  let db ← read
  require (!(record.snapshot.job.state == .succeeded &&
      (record.snapshot.case.state == .verified || record.snapshot.job.progressPhase == .verified)) ||
    bundleAvailable db record.tenantId record.caseId) .invalidDurableRecord
  saveCase ⟨record.tenantId, record.caseId⟩ (fun c => c.version == record.version)
    (CaseRow.rewritten record) record.version .optimisticConcurrency
  saveJob ⟨lease.tenantId, lease.jobId⟩
    (fun j => j.version == record.version && j.leasedBy lease && j.caseId == record.caseId &&
      j.attempt == record.snapshot.job.attempt && j.cancellationRequestedAt.isNone)
    (JobRow.completed record) record.version .leaseOwnership
  releaseActiveJobQuota lease.tenantId lease.jobId record.updatedAt
  pure { record with version := record.version + 1 }

/-! ## Cancelling a lease -/

def cancelLeaseInTransaction (lease : JobLease) (at' : Instant) :
    Statement ρ σ (DurableReproductionRecord ρ σ) := do
  let db ← read
  let owned := (db.jobs.get ⟨lease.tenantId, lease.jobId⟩).filter (fun j =>
    j.leasedBy lease && j.cancellationRequestedAt.isSome)
  let version ← returnedVersion (owned.map JobRow.version)
  require (1 ≤ version) .leaseOwnership
  let found ← findByLease lease
  let record ← demand found .leaseOwnership
  require (record.version == version) .leaseOwnership
  let cancelledRecord ← demand (cancelRecord record at') .schema
  saveCase ⟨lease.tenantId, record.caseId⟩ (fun c => c.version == version)
    (CaseRow.cancelled cancelledRecord at') version .optimisticConcurrency
  saveJob ⟨lease.tenantId, lease.jobId⟩
    (fun j => j.leasedBy lease && j.cancellationRequestedAt.isSome && j.version == version)
    (JobRow.cancelledRunning at') version .leaseOwnership
  releaseActiveJobQuota lease.tenantId lease.jobId at'
  pure { cancelledRecord with version := version + 1 }

def cancelLease (lease : JobLease) (at' : Instant) : Statement ρ σ (DurableReproductionRecord ρ σ) := do
  require lease.valid .schema
  require (datetime at' && lease.acquiredAt ≤ at') .leaseOwnership
  cancelLeaseInTransaction lease at'

/-! ## Failing, releasing and recovering -/

variable [Sha256]

/-- The failure to store, `none` for a requeue. -/
def storedFailure (failure : LeaseFailure) (attempt maxAttempts : Nat) : Option JobFailure :=
  if failure.retryable && attempt < maxAttempts then none
  else if failure.retryable then some exhaustedFailure
  else some (workerFailure failure.code)

def failLease (lease : JobLease) (failure : LeaseFailure) : Statement ρ σ LeaseFailureDisposition := do
  require lease.valid .schema
  require (datetime failure.at' && datetime failure.nextAttemptAt && lease.acquiredAt ≤ failure.at' &&
    failure.at' ≤ failure.nextAttemptAt && isFailureCode failure.code) .leaseOwnership
  let db ← read
  let row ← demand ((db.jobs.get ⟨lease.tenantId, lease.jobId⟩).filter (fun j => j.leasedBy lease))
    .leaseOwnership
  if row.cancellationRequestedAt.isSome then
    let _ ← cancelLeaseInTransaction lease failure.at'
    pure .cancelled
  else
    let attempt ← demand (integer row.attempt) .corruptDurableRecord
    let maxAttempts ← demand (integer row.maxAttempts) .corruptDurableRecord
    let stored := storedFailure failure attempt maxAttempts
    let previous ← demand (integer row.version) .corruptDurableRecord
    saveJob ⟨lease.tenantId, lease.jobId⟩ (fun j => j.leasedBy lease)
      (JobRow.failed stored failure.nextAttemptAt failure.at') previous .leaseOwnership
    advanceCaseVersion lease.tenantId row.caseId previous failure.at'
    match stored with
    | none => do
      let message : QueueMessage :=
        ⟨row.caseId, recoveryEventId lease.tenantId lease.jobId lease.attempt, lease.jobId,
          .recoveryRequested, "1.0", lease.tenantId⟩
      require message.valid .schema
      insertOutboxEventOrIgnore ⟨message.tenantId, message.eventId⟩
        (pendingEvent message failure.nextAttemptAt failure.at' failure.at')
      pure .requeued
    | some _ => do
      releaseActiveJobQuota lease.tenantId lease.jobId failure.at'
      pure .exhausted

structure ReleaseInput where
  at' : Instant
  nextAttemptAt : Instant
  deriving DecidableEq, Repr

def releaseLease (lease : JobLease) (input : ReleaseInput) : Statement ρ σ Unit := do
  require lease.valid .schema
  let _ ← failLease lease ⟨input.at', "LEASE_RELEASED", input.nextAttemptAt, true⟩
  pure ()

def appendAudit (event : AuditEvent) : Statement ρ σ Unit := do
  require event.valid .schema
  insertAuditEvent ⟨event.tenantId, event.eventId⟩
    ⟨event.actorId, event.action, event.targetType, event.targetId, event.outcome, event.metadata,
      event.occurredAt⟩

def LeaseFailureDisposition.text : LeaseFailureDisposition → String
  | .cancelled => "cancelled"
  | .exhausted => "exhausted"
  | .requeued => "requeued"

/-- Rows in the order of `ORDER BY lease_expires_at, tenant_id, id`. -/
def expiredBefore (a b : Key × JobRow) : Bool :=
  match a.2.leaseExpiresAt, b.2.leaseExpiresAt with
  | some x, some y =>
    x < y || (x == y && (a.1.tenantId < b.1.tenantId || (a.1.tenantId == b.1.tenantId && a.1.id ≤ b.1.id)))
  | _, _ => true

/-- The expired leases, without the rows that another transaction has locked. -/
def expiredLeases (db : Db ρ σ) (at' : Instant) (limit : Nat) (locked : List Key) : List (Key × JobRow) :=
  ((db.jobs.select (fun key j =>
    j.state == .running && j.leaseExpiresAt.any (· ≤ at') && !locked.contains key)).mergeSort
      expiredBefore).take limit

def recoverLease (at' : Instant) (row : Key × JobRow) : Statement ρ σ LeaseFailureDisposition := do
  let acquiredAt ← demand row.2.leaseAcquiredAt .corruptDurableRecord
  let expiresAt ← demand row.2.leaseExpiresAt .corruptDurableRecord
  let ownerId ← demand row.2.leaseOwner .schema
  let attempt ← demand (integer row.2.attempt) .corruptDurableRecord
  let lease : JobLease := ⟨acquiredAt, attempt, expiresAt, row.1.id, ownerId, row.1.tenantId⟩
  require lease.valid .schema
  let disposition ← failLease lease ⟨at', "LEASE_EXPIRED", at', true⟩
  appendAudit
    { action := "job.lease-recovered"
      actorId := "operator:lease-recovery"
      eventId := recoveryAuditEventId lease.tenantId lease.jobId lease.attempt
      metadata := [("attempt", .number lease.attempt), ("disposition", .text disposition.text)]
      occurredAt := at'
      outcome := if disposition = .exhausted then .failure else .success
      targetId := lease.jobId
      targetType := .job
      tenantId := lease.tenantId }
  pure disposition

def recoverySummary (dispositions : List LeaseFailureDisposition) : LeaseRecoverySummary where
  cancelled := dispositions.count .cancelled
  exhausted := dispositions.count .exhausted
  requeued := dispositions.count .requeued

structure RecoverInput where
  at' : Instant
  limit : Nat
  deriving DecidableEq, Repr

/-- `locked` are the rows that `SKIP LOCKED` passes over. -/
def recoverExpiredLeases (input : RecoverInput) (locked : List Key) : Statement ρ σ LeaseRecoverySummary := do
  require (datetime input.at' && 1 ≤ input.limit && input.limit ≤ 1000) .leaseOwnership
  let db ← read
  let dispositions ← forEach (recoverLease input.at') (expiredLeases db input.at' input.limit locked)
  pure (recoverySummary dispositions)

end ReproForge
