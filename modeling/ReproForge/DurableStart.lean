import ReproForge.Cancellation

/-!
# Durable starts

Reserving a reproduction under an idempotency key, saving a queued record,
reserving quota, and the start transaction that combines them with an audit
entry and an outbox event.
-/
namespace ReproForge

open KeyedTable Transactions Transactions.Tx

variable {ρ σ : Type} [ResultDocument ρ] [RequestDocument σ]

/-! ## Reserving and saving a record -/

def newCase (record : DurableReproductionRecord ρ σ) (now : Instant) : CaseRow ρ σ where
  sourceKind := if record.repositoryRequest.isSome then .github else .trustedSample
  sourceDescriptor := sourceDescriptor record
  state := record.snapshot.case.state
  domainState := serializeCaseDomain record
  schemaVersion := record.snapshot.schemaVersion
  version := 1
  createdAt := record.createdAt
  updatedAt := record.updatedAt
  retentionUntil := now + days 30

def newJob (record : DurableReproductionRecord ρ σ) (now : Instant) : JobRow where
  caseId := record.caseId
  state := record.snapshot.job.state
  progressPhase := record.snapshot.job.progressPhase
  attempt := record.snapshot.job.attempt
  maxAttempts := 3
  nextAttemptAt := record.createdAt
  leaseOwner := none
  leaseAcquiredAt := none
  leaseExpiresAt := none
  cancellationRequestedAt := none
  cancelledAt := none
  failureCode := record.snapshot.job.failure.map JobFailure.code
  failureMessage := record.snapshot.job.failure.map JobFailure.message
  failureRetryable := record.snapshot.job.failure.map JobFailure.retryable
  version := 1
  createdAt := record.snapshot.job.createdAt
  updatedAt := record.snapshot.job.updatedAt
  retentionUntil := now + days 30

def newIdempotencyKey (record : DurableReproductionRecord ρ σ) (now : Instant) : IdempotencyRow where
  commandHash := record.commandHash
  caseId := record.caseId
  jobId := record.jobId
  createdAt := record.createdAt
  expiresAt := now + days 30

structure DurableReservationResult (ρ σ : Type) where
  created : Bool
  record : DurableReproductionRecord ρ σ
  deriving DecidableEq

def recordScope (record : DurableReproductionRecord ρ σ) : TenantScope :=
  ⟨record.callerId, record.callerId, record.tenantId⟩

def recordKey (record : DurableReproductionRecord ρ σ) : IdempotencyKey :=
  ⟨record.tenantId, record.callerId, record.idempotencyKey⟩

/-- The advisory lock on the idempotency key is implied by the serial order of transactions. -/
def reserveInTransaction (record : DurableReproductionRecord ρ σ) :
    Statement ρ σ (DurableReservationResult ρ σ) := do
  let db ← read
  require (tenantActive db record.tenantId) .invalidDurableRecord
  match ← findByIdempotencyKey (recordScope record) record.idempotencyKey with
  | some existing => pure ⟨false, existing⟩
  | none =>
    insertCase (recordCaseKey record) (newCase record db.now)
    insertJob (recordJobKey record) (newJob record db.now)
    insertIdempotencyKey (recordKey record) (newIdempotencyKey record db.now)
    pure ⟨true, record⟩

def reserve (record : DurableReproductionRecord ρ σ) : Statement ρ σ (DurableReservationResult ρ σ) := do
  require (validateRecord record true) .invalidDurableRecord
  reserveInTransaction record

def saveInTransaction (record : DurableReproductionRecord ρ σ) (expectedVersion : Nat) :
    Statement ρ σ (DurableReproductionRecord ρ σ) := do
  require (record.snapshot.job.state == .queued) .optimisticConcurrency
  saveCase (recordCaseKey record) (fun c => c.version == expectedVersion) (CaseRow.rewritten record)
    expectedVersion .optimisticConcurrency
  saveJob (recordJobKey record)
    (fun j => j.version == expectedVersion && j.state == record.snapshot.job.state &&
      j.progressPhase == record.snapshot.job.progressPhase &&
      j.attempt == record.snapshot.job.attempt && j.leaseOwner.isNone)
    (JobRow.saved record) expectedVersion .optimisticConcurrency
  pure { record with version := expectedVersion + 1 }

def save (record : DurableReproductionRecord ρ σ) (expectedVersion : Nat) :
    Statement ρ σ (DurableReproductionRecord ρ σ) := do
  require (validateRecord record false) .invalidDurableRecord
  require (record.version == expectedVersion && 1 ≤ expectedVersion) .optimisticConcurrency
  saveInTransaction record expectedVersion

theorem save_ok [Sha256] {record reply : DurableReproductionRecord ρ σ} {expectedVersion : Nat}
    {db db' : Db ρ σ} (h : save record expectedVersion db = (.ok reply, db')) :
    reply = { record with version := record.version + 1 } ∧
      ∃ j c, JobWrite db db' (recordJobKey record) (recordCaseKey record) j (j.saved record) c
        (c.rewritten record) := by
  simp only [save, saveInTransaction, bind_ok, require_ok, pure_ok] at h
  obtain ⟨_, _, ⟨hrec, rfl⟩, _, _, ⟨hver, rfl⟩, _, _, ⟨hqueued, rfl⟩, _, t₁, hsaveCase, _, t₂, hsaveJob, hr,
    rfl⟩ := h
  obtain ⟨c, hc, hcw, hca, hcb, ht⟩ := saveCase_ok hsaveCase
  subst ht
  obtain ⟨j, hj, hjw, hja, -, ht⟩ := saveJob_ok hsaveJob
  subst ht
  simp only [Bool.and_eq_true, beq_iff_eq, decide_eq_true_eq, Option.isNone_iff_eq_none] at hver hqueued hcw hjw
  obtain ⟨⟨⟨⟨hjver, hstate⟩, hphase⟩, hattempt⟩, howner⟩ := hjw
  have hjstate : j.state = .queued := hstate.trans hqueued
  refine ⟨by rw [hr, hver.1], j, c, ?_⟩
  exact {
    step := .save record rfl rfl rfl (hver.1.trans hjver.symm) hrec hqueued hjstate hphase.symm hattempt.symm
      howner
    job := hj
    case := hc
    tenant := rfl
    versions := hcw.trans hjver.symm
    bounded := hjver ▸ hcb
    jobAllowed := hja
    caseAllowed := hca
    result := by simp [JobRow.saved, hqueued, JobState.terminal, recoveredOutbox, hjstate] }

/-! ## The quota ledger -/

/-- Limits that the constructor of the ledger accepts. -/
structure QuotaLimits where
  limit : QuotaResource → Nat
  positive : ∀ resource, 1 ≤ limit resource
  safe : ∀ resource, limit resource ≤ maxSafeInteger

/-- `DEFAULT_QUOTA_LIMITS` -/
def QuotaLimits.default : QuotaLimits where
  limit
    | .activeJobs => 2
    | .artifactBytes => 1073741824
    | .cpuMilliseconds => 3600000
    | .exports => 20
  positive := by intro r; cases r <;> decide
  safe := by intro r; cases r <;> decide

def expirable (tenantId : String) (resource : QuotaResource) (now : Instant) (key : Key) (q : QuotaRow) :
    Bool :=
  key.tenantId == tenantId && q.resource == resource && q.state == .reserved && q.expiresAt ≤ now

def QuotaRow.expired (now : Instant) (q : QuotaRow) : QuotaRow := { q with state := .expired, updatedAt := now }

def countsTowards (tenantId : String) (resource : QuotaResource) (now : Instant) (key : Key) (q : QuotaRow) :
    Bool :=
  key.tenantId == tenantId && q.resource == resource && (q.state == .reserved || q.state == .committed) &&
    now < q.windowEnd

def QuotaRow.usage (q : QuotaRow) : Nat :=
  match q.state with
  | .committed => q.actualAmount
  | .reserved => q.reservedAmount
  | .released | .expired => 0

def quotaUsage (t : Table Key QuotaRow) (tenantId : String) (resource : QuotaResource) (now : Instant) : Nat :=
  ((t.select (countsTowards tenantId resource now)).map (fun row => row.2.usage)).sum

def newReservation (reservation : QuotaReservation) (jobCreatedAt now : Instant) : QuotaRow where
  resource := reservation.resource
  caseId := some reservation.caseId
  jobId := some reservation.jobId
  windowStart := jobCreatedAt
  windowEnd := reservation.expiresAt
  reservedAmount := reservation.amount
  actualAmount := 0
  state := .reserved
  expiresAt := reservation.expiresAt
  createdAt := jobCreatedAt
  updatedAt := jobCreatedAt
  retentionUntil := now + days 365

/-- `INSERT … SELECT … FROM jobs … ON CONFLICT DO NOTHING RETURNING id`: whether a row went in. -/
def insertReservation (reservation : QuotaReservation) : Statement ρ σ Bool := fun db =>
  let key : Key := ⟨reservation.tenantId, reservation.reservationId⟩
  match (db.jobs.get ⟨reservation.tenantId, reservation.jobId⟩).filter (fun j =>
      j.caseId == reservation.caseId) with
  | none => (.ok false, db)
  | some j =>
    let row := newReservation reservation j.createdAt db.now
    if !row.checks key then (.error .constraint, db)
    else if (db.quotaLedger.get key).isSome then (.ok false, db)
    else (.ok true, { db with quotaLedger := db.quotaLedger.insert key row })

def reserveQuota (limits : QuotaLimits) (reservation : QuotaReservation) : Statement ρ σ Bool := do
  require reservation.valid .schema
  let before ← read
  updateQuotas (expirable reservation.tenantId reservation.resource before.now) (QuotaRow.expired before.now)
  let db ← read
  let used := quotaUsage db.quotaLedger reservation.tenantId reservation.resource db.now
  if used ≤ maxSafeInteger && used + reservation.amount ≤ limits.limit reservation.resource then
    insertReservation reservation
  else pure false

/-! ## The start transaction -/

def appendOutbox (message : QueueMessage) : Statement ρ σ Unit := do
  require message.valid .schema
  let db ← read
  insertOutboxEvent ⟨message.tenantId, message.eventId⟩ (pendingEvent message db.now db.now db.now)

structure DurableStartInput (ρ σ : Type) where
  auditEvent : AuditEvent
  outboxMessage : QueueMessage
  quotaReservation : QuotaReservation
  record : DurableReproductionRecord ρ σ

def invalidStart : DurableError :=
  .start ⟨.invalidStartInput, "The durable start request is invalid", false⟩

def misalignedStart : DurableError :=
  .start ⟨.invalidStartInput, "The durable start request identities do not align", false⟩

def idempotencyConflict : DurableError :=
  .start ⟨.idempotencyConflict, "The idempotency key was already used for a different request", false⟩

def quotaExceeded : DurableError :=
  .start ⟨.quotaExceeded, "The tenant does not have enough available quota", false⟩

def DurableStartInput.schemas (input : DurableStartInput ρ σ) : Bool :=
  (recordScope input.record).valid && input.record.snapshot.valid && input.auditEvent.valid &&
    input.outboxMessage.valid && input.quotaReservation.valid

def DurableStartInput.aligned (input : DurableStartInput ρ σ) : Bool :=
  input.record.caseId == input.record.snapshot.case.id &&
    input.record.jobId == input.record.snapshot.job.id &&
    input.record.caseId == input.record.snapshot.job.caseId &&
    input.auditEvent.tenantId == input.record.tenantId &&
    input.auditEvent.targetId == input.record.caseId &&
    input.outboxMessage.tenantId == input.record.tenantId &&
    input.outboxMessage.caseId == input.record.caseId &&
    input.outboxMessage.jobId == input.record.jobId &&
    input.quotaReservation.tenantId == input.record.tenantId &&
    input.quotaReservation.caseId == input.record.caseId &&
    input.quotaReservation.jobId == input.record.jobId

def validateStartInput (input : DurableStartInput ρ σ) : Statement ρ σ Unit := do
  require input.schemas invalidStart
  require input.aligned misalignedStart

def reserveDurableStart (limits : QuotaLimits) (input : DurableStartInput ρ σ) :
    Statement ρ σ (DurableReservationResult ρ σ) := do
  validateStartInput input
  let reservation ← reserve input.record
  if reservation.created then
    let reserved ← reserveQuota limits input.quotaReservation
    require reserved quotaExceeded
    appendAudit input.auditEvent
    appendOutbox input.outboxMessage
    pure reservation
  else
    require (reservation.record.commandHash == input.record.commandHash) idempotencyConflict
    pure reservation

/-! ## The start that the case services issue -/

inductive StartSource (σ : Type) where
  | trustedSample : SampleId → StartSource σ
  | repository : σ → ImmutableRepositorySource → StartSource σ

/-- A start command after its source is resolved, with the identifiers and the
host clock reading that the service gives it. -/
structure StartCommand (σ : Type) where
  budget : RequestedBudget
  callerId : String
  caseId : String
  commandHash : String
  createdAt : Instant
  idempotencyKey : String
  jobId : String
  principalId : String
  source : StartSource σ
  tenantId : String

def StartSource.request : StartSource σ → Option σ
  | .trustedSample _ => none
  | .repository request _ => some request

def StartSource.repositorySource : StartSource σ → Option ImmutableRepositorySource
  | .trustedSample _ => none
  | .repository _ source => some source

def StartSource.sampleId : StartSource σ → Option SampleId
  | .trustedSample sampleId => some sampleId
  | .repository _ _ => none

/-- The actor and the metadata of the audit entry. -/
def StartCommand.actor (command : StartCommand σ) : String :=
  match command.source with
  | .trustedSample _ => command.callerId
  | .repository _ _ => command.principalId

def StartSource.metadata : StartSource σ → List (String × MetadataValue)
  | .trustedSample _ => [("sampleKind", .text "trusted-sample")]
  | .repository _ source => [("provider", .text "github"), ("repositoryId", .text source.repositoryId)]

def startRecord (command : StartCommand σ) : Option (DurableReproductionRecord ρ σ) :=
  match createCase command.caseId command.createdAt,
      createJob command.jobId command.caseId command.createdAt with
  | some case, some job =>
    some
      { callerId := command.callerId
        caseId := command.caseId
        commandHash := command.commandHash
        createdAt := command.createdAt
        idempotencyKey := command.idempotencyKey
        jobId := command.jobId
        requestedBudget := some command.budget
        repositoryRequest := command.source.request
        snapshot :=
          { case := case
            job := job
            repositorySource := command.source.repositorySource
            result := none
            sampleId := command.source.sampleId
            schemaVersion := "2.0" }
        tenantId := command.tenantId
        updatedAt := command.createdAt
        version := 1 }
  | _, _ => none

def derivedId [Sha256] (name : String) (parts : List String) : String :=
  name ++ "_" ++ hashPrefix 48 (String.intercalate "\u0000" parts)

def messageFor (record : DurableReproductionRecord ρ σ) : QueueMessage where
  caseId := record.caseId
  eventId := "outbox_" ++ record.caseId
  jobId := record.jobId
  kind := .requested
  schemaVersion := "1.0"
  tenantId := record.tenantId

/-- `15 * 60_000` -/
def reservationLifetime : Int := 15 * 60000

/-- `none` when the case or the job cannot be created. -/
def startInput [Sha256] (lifetime : Int) (command : StartCommand σ) : Option (DurableStartInput ρ σ) :=
  (startRecord command).map (fun record =>
    { auditEvent :=
        { action := "case.created"
          actorId := command.actor
          eventId := derivedId "audit" [record.tenantId, record.caseId]
          metadata := command.source.metadata
          occurredAt := record.createdAt
          outcome := .success
          targetId := record.caseId
          targetType := .case
          tenantId := record.tenantId }
      outboxMessage := messageFor record
      quotaReservation :=
        { amount := 1
          caseId := record.caseId
          expiresAt := command.createdAt + lifetime
          jobId := record.jobId
          reservationId := derivedId "quota" [record.tenantId, record.caseId]
          resource := .activeJobs
          tenantId := record.tenantId }
      record := record })

omit [ResultDocument ρ] [RequestDocument σ] in
/-- The parts of a service's start input that its transaction relies on. -/
theorem startInput_some [Sha256] {lifetime : Int} {command : StartCommand σ}
    {input : DurableStartInput ρ σ} (h : startInput lifetime command = some input) :
    startRecord command = some input.record ∧ input.outboxMessage = messageFor input.record ∧
      input.quotaReservation.amount = 1 ∧ input.quotaReservation.resource = .activeJobs ∧
      input.quotaReservation.jobId = input.record.jobId ∧
      input.quotaReservation.tenantId = input.record.tenantId ∧
      input.record.snapshot.job.state = .queued ∧ input.record.snapshot.job.attempt = 0 := by
  obtain ⟨record, hr, rfl⟩ := Option.map_eq_some_iff.mp h
  refine ⟨hr, rfl, rfl, rfl, rfl, rfl, ?_⟩
  simp only [startRecord] at hr
  split at hr
  · rename_i case job hcase hjob
    cases hr
    obtain ⟨rfl, -⟩ := createJob_some hjob
    exact ⟨rfl, rfl⟩
  · cases hr

/-- The input is one that a case service issues. -/
def ServiceStart [Sha256] (lifetime : Int) (input : DurableStartInput ρ σ) : Prop :=
  ∃ command, startInput lifetime command = some input

end ReproForge
