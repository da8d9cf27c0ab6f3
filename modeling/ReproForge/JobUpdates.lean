import ReproForge.DurableRows

/-!
# Updates of a job and its case

The SET clauses of the statements that move a job, and `JobStep`: all that one
committed operation can do to a job, its case, its reservation and its outbox
events. Every operation of the repository is shown to be such a step, and every
invariant is derived from the step alone.
-/
namespace ReproForge

open KeyedTable Transactions Transactions.Tx

variable {ρ σ : Type}

/-- `createHash("sha256").update(text).digest("hex")` -/
class Sha256 where
  hex : String → String

def hashPrefix [Sha256] (length : Nat) (text : String) : String :=
  String.ofList ((Sha256.hex text).toList.take length)

def recoveryEventId [Sha256] (tenantId jobId : String) (attempt : Nat) : String :=
  "recovery_" ++ hashPrefix 40 (tenantId ++ ":" ++ jobId ++ ":" ++ toString attempt)

def recoveryAuditEventId [Sha256] (tenantId jobId : String) (attempt : Nat) : String :=
  "audit_lease_recovery_" ++ hashPrefix 40 (tenantId ++ ":" ++ jobId ++ ":" ++ toString attempt)

/-! ## SET clauses -/

namespace JobRow

def claimed (ownerId : String) (acquiredAt expiresAt : Instant) (j : JobRow) : JobRow :=
  { j with
    state := .running
    attempt := j.attempt + 1
    leaseOwner := some ownerId
    leaseAcquiredAt := some acquiredAt
    leaseExpiresAt := some expiresAt
    updatedAt := acquiredAt
    version := j.version + 1 }

def renewed (expiresAt at' : Instant) (j : JobRow) : JobRow :=
  { j with leaseExpiresAt := some expiresAt, updatedAt := at', version := j.version + 1 }

/-- `completeLease` -/
def completed (record : DurableReproductionRecord ρ σ) (j : JobRow) : JobRow :=
  { j with
    state := record.snapshot.job.state
    progressPhase := record.snapshot.job.progressPhase
    failureCode := record.snapshot.job.failure.map JobFailure.code
    failureMessage := record.snapshot.job.failure.map JobFailure.message
    failureRetryable := record.snapshot.job.failure.map JobFailure.retryable
    leaseOwner := none
    leaseAcquiredAt := none
    leaseExpiresAt := none
    updatedAt := record.updatedAt
    version := j.version + 1 }

/-- `failLease`, both outcomes of the retry test. -/
def failed (failure : Option JobFailure) (nextAttemptAt at' : Instant) (j : JobRow) : JobRow :=
  { j with
    state := if failure.isNone then .queued else .failed
    nextAttemptAt := nextAttemptAt
    leaseOwner := none
    leaseAcquiredAt := none
    leaseExpiresAt := none
    failureCode := failure.map JobFailure.code
    failureMessage := failure.map JobFailure.message
    failureRetryable := failure.map JobFailure.retryable
    updatedAt := at'
    version := j.version + 1 }

def cancellationRequested (at' : Instant) (j : JobRow) : JobRow :=
  { j with cancellationRequestedAt := some at', updatedAt := at', version := j.version + 1 }

/-- `requestCancellation` of a job that no worker holds. -/
def cancelledQueued (at' : Instant) (j : JobRow) : JobRow :=
  { j with
    state := .cancelled
    progressPhase := .cancelled
    cancellationRequestedAt := some at'
    cancelledAt := some at'
    updatedAt := at'
    version := j.version + 1 }

/-- `cancelLease` -/
def cancelledRunning (at' : Instant) (j : JobRow) : JobRow :=
  { j with
    state := .cancelled
    progressPhase := .cancelled
    cancelledAt := some at'
    leaseOwner := none
    leaseAcquiredAt := none
    leaseExpiresAt := none
    updatedAt := at'
    version := j.version + 1 }

/-- `save` -/
def saved (record : DurableReproductionRecord ρ σ) (j : JobRow) : JobRow :=
  { j with
    state := record.snapshot.job.state
    progressPhase := record.snapshot.job.progressPhase
    attempt := record.snapshot.job.attempt
    failureCode := record.snapshot.job.failure.map JobFailure.code
    failureMessage := record.snapshot.job.failure.map JobFailure.message
    failureRetryable := record.snapshot.job.failure.map JobFailure.retryable
    updatedAt := record.updatedAt
    version := j.version + 1 }

/-- The lease test of `claimLease`. -/
def claimable (at' : Instant) (j : JobRow) : Bool :=
  j.attempt < j.maxAttempts &&
    ((j.state == .queued && j.nextAttemptAt ≤ at') ||
      (j.state == .running && j.leaseExpiresAt.any (· ≤ at')))

end JobRow

namespace CaseRow

def advanced (at' : Instant) (c : CaseRow ρ σ) : CaseRow ρ σ :=
  { c with version := c.version + 1, updatedAt := at' }

def rewritten (record : DurableReproductionRecord ρ σ) (c : CaseRow ρ σ) : CaseRow ρ σ :=
  { c with
    state := record.snapshot.case.state
    domainState := serializeCaseDomain record
    schemaVersion := record.snapshot.schemaVersion
    updatedAt := record.updatedAt
    version := c.version + 1 }

def cancelled (record : DurableReproductionRecord ρ σ) (at' : Instant) (c : CaseRow ρ σ) : CaseRow ρ σ :=
  { c with
    state := .cancelled
    domainState := serializeCaseDomain record
    updatedAt := at'
    version := c.version + 1 }

end CaseRow

/-! ## What one operation does to a job -/

def recordCaseKey (record : DurableReproductionRecord ρ σ) : Key := ⟨record.tenantId, record.caseId⟩
def recordJobKey (record : DurableReproductionRecord ρ σ) : Key := ⟨record.tenantId, record.jobId⟩

def tenantActive (db : Db ρ σ) (tenantId : String) : Bool :=
  (db.tenants.get tenantId).any (fun t => t.status == .active)

/-- The release condition of `releaseActiveJobQuota`. -/
def activeJobReservation (tenantId jobId : String) (key : Key) (q : QuotaRow) : Bool :=
  key.tenantId == tenantId && q.jobId == some jobId && q.resource == .activeJobs && q.state == .reserved

def QuotaRow.released (at' : Instant) (q : QuotaRow) : QuotaRow :=
  { q with state := .released, updatedAt := at' }

def releasedQuotas (tenantId jobId : String) (at' : Instant) (t : Table Key QuotaRow) : Table Key QuotaRow :=
  t.update (activeJobReservation tenantId jobId) (fun _ => QuotaRow.released at')

/-- The record of a cancelled case: its lifecycle moved to CANCELLED. -/
def cancelRecord (record : DurableReproductionRecord ρ σ) (at' : Instant) :
    Option (DurableReproductionRecord ρ σ) :=
  match transitionCase record.snapshot.case .cancelled "Cancellation requested" at',
      transitionJob record.snapshot.job .cancelled at' none .cancelled with
  | some cancelledCase, some cancelledJob =>
    some { record with
      snapshot := { record.snapshot with case := cancelledCase, job := cancelledJob }
      updatedAt := at' }
  | _, _ => none

theorem cancelRecord_some {record cancelled : DurableReproductionRecord ρ σ} {at' : Instant}
    (h : cancelRecord record at' = some cancelled) :
    ∃ case job, transitionCase record.snapshot.case .cancelled "Cancellation requested" at' = some case ∧
      cancelled = { record with
        snapshot := { record.snapshot with case := case, job := job }
        updatedAt := at' } := by
  simp only [cancelRecord] at h
  split at h
  · rename_i case job hcase hjob
    cases h
    exact ⟨case, job, hcase, rfl⟩
  · cases h

/-- The documents of a case that are fixed when it is reserved. -/
def SameDomain (c c' : CaseRow ρ σ) : Prop :=
  c'.domainState.repositorySource = c.domainState.repositorySource ∧
    c'.domainState.sampleId = c.domainState.sampleId ∧
    c'.domainState.schemaVersion = c.domainState.schemaVersion

theorem sameDomain_cancelled [ResultDocument ρ] [RequestDocument σ] {row : DurableRow ρ σ}
    {record cancelled : DurableReproductionRecord ρ σ} {at' : Instant} (hrecord : rowToRecord row = some record)
    (hcancel : cancelRecord record at' = some cancelled) :
    SameDomain row.case (row.case.cancelled cancelled at') := by
  obtain ⟨failure, -, -, -, -, -, -, -, rfl, -⟩ := rowToRecord_some.mp hrecord
  obtain ⟨case, job, -, rfl⟩ := cancelRecord_some hcancel
  exact ⟨rfl, rfl, rfl⟩

def recoveryMessage [Sha256] (key : Key) (j : JobRow) : QueueMessage where
  caseId := j.caseId
  eventId := recoveryEventId key.tenantId key.id j.attempt
  jobId := key.id
  kind := .recoveryRequested
  schemaVersion := "1.0"
  tenantId := key.tenantId

/-- A new outbox row: pending, never delivered, version 1. -/
def pendingEvent (message : QueueMessage) (nextAttemptAt createdAt updatedAt : Instant) : OutboxRow where
  payload := message
  status := .pending
  deliveryCount := 0
  nextAttemptAt := nextAttemptAt
  deliveredAt := none
  lastErrorCode := none
  claimOwner := none
  claimExpiresAt := none
  providerMessageId := none
  version := 1
  createdAt := createdAt
  updatedAt := updatedAt

def recoveryEvent [Sha256] (key : Key) (j : JobRow) (nextAttemptAt at' : Instant) : OutboxRow :=
  pendingEvent (recoveryMessage key j) nextAttemptAt at' at'

/-- The failures that `failLease` stores when it does not requeue. -/
def exhaustedFailure : JobFailure :=
  ⟨"JOB_RETRY_EXHAUSTED", "The durable worker exhausted its retry budget", false⟩

def workerFailure (code : String) : JobFailure := ⟨code, "The durable worker failed safely", false⟩

/-- An AVAILABLE bundle of the case. -/
def bundleAvailable (db : Db ρ σ) (tenantId caseId : String) : Bool :=
  (db.artifacts.find? (fun key a =>
    key.tenantId == tenantId && a.caseId == caseId && a.kind == .bundle && a.status == .available)).isSome

/-- All that one operation does to the rows of a job and its case, with the
guards that the operation checked in the same transaction. -/
inductive JobStep [ResultDocument ρ] [RequestDocument σ] (db : Db ρ σ) (key caseKey : Key)
    (j : JobRow) (c : CaseRow ρ σ) : JobRow → CaseRow ρ σ → Prop where
  | claim (ownerId : String) (acquiredAt expiresAt : Instant) :
      caseKey.id = j.caseId → tenantActive db key.tenantId = true → j.claimable acquiredAt = true →
      (⟨acquiredAt, j.attempt + 1, expiresAt, key.id, ownerId, key.tenantId⟩ : JobLease).valid = true →
      JobStep db key caseKey j c (j.claimed ownerId acquiredAt expiresAt) (c.advanced acquiredAt)
  | renew (lease : JobLease) (at' expiresAt : Instant) :
      caseKey.id = j.caseId → lease.valid = true → j.state = .running →
      j.leaseOwner = some lease.ownerId → j.attempt = lease.attempt →
      j.leaseExpiresAt = some lease.expiresAt → lease.acquiredAt ≤ at' → at' < lease.expiresAt →
      lease.expiresAt < expiresAt → datetime at' = true → datetime expiresAt = true →
      JobStep db key caseKey j c (j.renewed expiresAt at') (c.advanced at')
  | complete (lease : JobLease) (record : DurableReproductionRecord ρ σ) :
      caseKey.id = j.caseId → record.caseId = j.caseId → record.tenantId = key.tenantId →
      record.jobId = key.id → record.version = j.version → validateRecord record false = true →
      lease.valid = true → j.leasedBy lease = true → record.snapshot.job.attempt = j.attempt →
      j.cancellationRequestedAt = none →
      (record.snapshot.job.state = .succeeded ∨ record.snapshot.job.state = .failed) →
      (record.snapshot.job.state = .succeeded → record.snapshot.case.state = .verified →
        bundleAvailable db key.tenantId j.caseId = true) →
      JobStep db key caseKey j c (j.completed record) (c.rewritten record)
  | requeue (lease : JobLease) (nextAttemptAt at' : Instant) :
      caseKey.id = j.caseId → lease.valid = true → j.leasedBy lease = true →
      j.cancellationRequestedAt = none → j.attempt < j.maxAttempts → lease.acquiredAt ≤ at' →
      at' ≤ nextAttemptAt → datetime at' = true → datetime nextAttemptAt = true →
      JobStep db key caseKey j c (j.failed none nextAttemptAt at') (c.advanced at')
  | exhaust (lease : JobLease) (failure : JobFailure) (nextAttemptAt at' : Instant) :
      caseKey.id = j.caseId → lease.valid = true → j.leasedBy lease = true →
      j.cancellationRequestedAt = none → lease.acquiredAt ≤ at' → at' ≤ nextAttemptAt →
      datetime at' = true →
      (failure = exhaustedFailure ∧ j.maxAttempts ≤ j.attempt ∨
        ∃ code, failure = workerFailure code ∧ isFailureCode code = true) →
      JobStep db key caseKey j c (j.failed (some failure) nextAttemptAt at') (c.advanced at')
  | request (at' : Instant) :
      caseKey.id = j.caseId → j.state = .running → j.cancellationRequestedAt = none →
      datetime at' = true →
      JobStep db key caseKey j c (j.cancellationRequested at') (c.advanced at')
  | cancelQueued (row : DurableRow ρ σ) (record cancelled : DurableReproductionRecord ρ σ) (at' : Instant) :
      caseKey.id = j.caseId → j.state = .queued → Joined db row → row.jobKey = key → row.job = j →
      row.case = c → rowToRecord row = some record → cancelRecord record at' = some cancelled →
      datetime at' = true →
      JobStep db key caseKey j c (j.cancelledQueued at') (c.cancelled cancelled at')
  | cancelRunning (lease : JobLease) (row : DurableRow ρ σ)
      (record cancelled : DurableReproductionRecord ρ σ) (at' : Instant) :
      caseKey.id = j.caseId → lease.valid = true → j.leasedBy lease = true →
      j.cancellationRequestedAt.isSome = true → lease.acquiredAt ≤ at' → Joined db row →
      row.jobKey = key → row.job = j → row.case = c → rowToRecord row = some record →
      cancelRecord record at' = some cancelled → datetime at' = true →
      JobStep db key caseKey j c (j.cancelledRunning at') (c.cancelled cancelled at')
  | save (record : DurableReproductionRecord ρ σ) :
      caseKey.id = record.caseId → record.tenantId = key.tenantId → record.jobId = key.id →
      record.version = j.version → validateRecord record false = true →
      record.snapshot.job.state = .queued → j.state = .queued →
      record.snapshot.job.progressPhase = j.progressPhase → record.snapshot.job.attempt = j.attempt →
      j.leaseOwner = none →
      JobStep db key caseKey j c (j.saved record) (c.rewritten record)

/-- The outbox after a job step: a requeue leaves a recovery event, once. -/
def recoveredOutbox [Sha256] (key : Key) (j j' : JobRow) (t : Table Key OutboxRow) : Table Key OutboxRow :=
  if j.state = .running ∧ j'.state = .queued then
    t.insert ⟨key.tenantId, recoveryEventId key.tenantId key.id j.attempt⟩
      (recoveryEvent key j j'.nextAttemptAt j'.updatedAt)
  else t

/-- The rows that one operation on a job writes, and that it writes nothing else. -/
structure JobWrite [ResultDocument ρ] [RequestDocument σ] [Sha256] (db db' : Db ρ σ) (key caseKey : Key)
    (j j' : JobRow) (c c' : CaseRow ρ σ) : Prop where
  step : JobStep db key caseKey j c j' c'
  job : db.jobs.get key = some j
  case : db.cases.get caseKey = some c
  tenant : caseKey.tenantId = key.tenantId
  versions : c.version = j.version
  bounded : j.version < maxSafeInteger
  jobAllowed : jobUpdateAllowed key j j' = true
  caseAllowed : caseUpdateAllowed caseKey c c' = true
  result : db' = { db with
    jobs := db.jobs.set key j'
    cases := db.cases.set caseKey c'
    quotaLedger := if j'.state.terminal then releasedQuotas key.tenantId key.id j'.updatedAt db.quotaLedger
      else db.quotaLedger
    outboxEvents := recoveredOutbox key j j' db.outboxEvents }

theorem JobWrite.job_get [ResultDocument ρ] [RequestDocument σ] [Sha256] {db db' : Db ρ σ}
    {key caseKey : Key} {j j' : JobRow} {c c' : CaseRow ρ σ}
    (h : JobWrite db db' key caseKey j j' c c') : db'.jobs.get key = some j' := by
  rw [h.result]
  exact Table.get_set_self h.job

theorem JobWrite.job_get_other [ResultDocument ρ] [RequestDocument σ] [Sha256] {db db' : Db ρ σ}
    {key caseKey key' : Key} {j j' : JobRow} {c c' : CaseRow ρ σ}
    (h : JobWrite db db' key caseKey j j' c c') (hk : key' ≠ key) : db'.jobs.get key' = db.jobs.get key' := by
  rw [h.result]
  exact Table.get_set_other _ _ hk

end ReproForge
