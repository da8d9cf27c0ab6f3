import ReproForge.Records
import ReproForge.Table

/-!
# The relational schema

One structure for the rows of each table, with the CHECK constraints of the
migrations as Boolean functions of a row, the row triggers as Boolean functions
of the old and the new row, and the database as the tuple of its tables. The
statement clock of the database server is a column of the state, as
`CURRENT_TIMESTAMP` reads it.
-/
namespace ReproForge

open KeyedTable

/-- A primary key `(tenant_id, id)`. -/
structure Key where
  tenantId : String
  id : String
  deriving DecidableEq, Repr

structure IdempotencyKey where
  tenantId : String
  callerId : String
  idempotencyKey : String
  deriving DecidableEq, Repr

inductive TenantStatus where
  | active | suspended | deleting | deleted
  deriving DecidableEq, Repr

structure TenantRow where
  status : TenantStatus
  createdAt : Instant
  updatedAt : Instant
  deletedAt : Option Instant
  retentionUntil : Option Instant
  deriving DecidableEq, Repr

def TenantRow.checks (t : TenantRow) : Bool :=
  t.createdAt ≤ t.updatedAt && (t.deletedAt.isNone || t.status == .deleted) &&
    t.retentionUntil.all (t.createdAt < ·)

inductive SourceKind where
  | trustedSample | github
  deriving DecidableEq, Repr

/-- `^[0-9]+\.[0-9]+$` -/
def schemaVersionFormat (s : String) : Bool :=
  let major := s.toList.takeWhile Char.isDigit
  match s.toList.dropWhile Char.isDigit with
  | '.' :: minor => !major.isEmpty && !minor.isEmpty && minor.all Char.isDigit
  | _ => false

structure CaseRow (ρ σ : Type) where
  sourceKind : SourceKind
  sourceDescriptor : SourceDescriptor σ
  state : CaseState
  domainState : CaseDomain ρ
  schemaVersion : String
  version : Nat
  createdAt : Instant
  updatedAt : Instant
  retentionUntil : Instant
  deriving DecidableEq

variable {ρ σ : Type}

def CaseRow.checks (key : Key) (c : CaseRow ρ σ) : Bool :=
  opaqueId key.id && schemaVersionFormat c.schemaVersion && 1 ≤ c.version &&
    c.createdAt ≤ c.updatedAt && c.createdAt < c.retentionUntil

structure JobRow where
  caseId : String
  state : JobState
  progressPhase : CaseState
  attempt : Nat
  maxAttempts : Nat
  nextAttemptAt : Instant
  leaseOwner : Option String
  leaseAcquiredAt : Option Instant
  leaseExpiresAt : Option Instant
  cancellationRequestedAt : Option Instant
  cancelledAt : Option Instant
  failureCode : Option String
  failureMessage : Option String
  failureRetryable : Option Bool
  version : Nat
  createdAt : Instant
  updatedAt : Instant
  retentionUntil : Instant
  deriving DecidableEq, Repr

def JobRow.leaseComplete (j : JobRow) : Bool :=
  match j.leaseOwner, j.leaseAcquiredAt, j.leaseExpiresAt with
  | none, none, none => true
  | some _, some acquired, some expires => acquired < expires
  | _, _, _ => false

def JobRow.failureShape (j : JobRow) : Bool :=
  if j.state = .failed then
    j.failureCode.isSome && j.failureMessage.isSome && j.failureRetryable.isSome
  else j.failureCode.isNone && j.failureMessage.isNone && j.failureRetryable.isNone

def JobRow.cancellationShape (j : JobRow) : Bool :=
  if j.state = .cancelled then j.cancellationRequestedAt.isSome == j.cancelledAt.isSome
  else j.cancelledAt.isNone && (j.cancellationRequestedAt.isNone || j.state == .running)

def JobRow.checks (key : Key) (j : JobRow) : Bool :=
  opaqueId key.id && 0 < j.maxAttempts && j.attempt ≤ j.maxAttempts && j.leaseComplete &&
    j.failureShape && j.cancellationShape && 1 ≤ j.version &&
    j.createdAt ≤ j.updatedAt && j.createdAt < j.retentionUntil &&
    j.cancellationRequestedAt.all (j.createdAt ≤ ·) && j.cancelledAt.all (j.createdAt ≤ ·) &&
    j.failureCode.all isFailureCode &&
    j.failureMessage.all (fun m => 1 ≤ m.length && m.length ≤ 512)

structure IdempotencyRow where
  commandHash : String
  caseId : String
  jobId : String
  createdAt : Instant
  expiresAt : Instant
  deriving DecidableEq, Repr

def IdempotencyRow.checks (key : IdempotencyKey) (i : IdempotencyRow) : Bool :=
  opaqueId key.callerId && 1 ≤ key.idempotencyKey.length && key.idempotencyKey.length ≤ 128 &&
    hexDigest 64 i.commandHash && i.createdAt < i.expiresAt

inductive OutboxStatus where
  | pending | sending | delivered | dead
  deriving DecidableEq, Repr

structure OutboxRow where
  payload : QueueMessage
  status : OutboxStatus
  deliveryCount : Nat
  nextAttemptAt : Instant
  deliveredAt : Option Instant
  lastErrorCode : Option String
  claimOwner : Option String
  claimExpiresAt : Option Instant
  providerMessageId : Option String
  version : Nat
  createdAt : Instant
  updatedAt : Instant
  deriving DecidableEq, Repr

def OutboxRow.deliveryState (o : OutboxRow) : Bool :=
  match o.status with
  | .pending => o.deliveredAt.isNone && o.claimOwner.isNone && o.claimExpiresAt.isNone &&
    o.providerMessageId.isNone
  | .sending => o.deliveredAt.isNone && o.claimOwner.isSome && o.claimExpiresAt.isSome &&
    o.claimExpiresAt.all (o.updatedAt < ·) && o.providerMessageId.isNone
  | .delivered => o.deliveredAt.isSome && o.claimOwner.isNone && o.claimExpiresAt.isNone
  | .dead => o.deliveredAt.isNone && o.claimOwner.isNone && o.claimExpiresAt.isNone &&
    o.providerMessageId.isNone && o.lastErrorCode.isSome

def OutboxRow.checks (key : Key) (o : OutboxRow) : Bool :=
  opaqueId key.id && o.payload.eventId == key.id && o.payload.tenantId == key.tenantId &&
    o.payload.schemaVersion == "1.0" && o.claimOwner.all opaqueId && 1 ≤ o.version &&
    o.createdAt ≤ o.updatedAt && o.deliveryState

structure AuditRow where
  actorId : String
  action : String
  targetType : AuditTarget
  targetId : String
  outcome : AuditOutcome
  metadata : List (String × MetadataValue)
  occurredAt : Instant
  deriving DecidableEq, Repr

inductive QuotaState where
  | reserved | committed | released | expired
  deriving DecidableEq, Repr

structure QuotaRow where
  resource : QuotaResource
  caseId : Option String
  jobId : Option String
  windowStart : Instant
  windowEnd : Instant
  reservedAmount : Nat
  actualAmount : Nat
  state : QuotaState
  expiresAt : Instant
  createdAt : Instant
  updatedAt : Instant
  retentionUntil : Instant
  deriving DecidableEq, Repr

def QuotaRow.checks (key : Key) (q : QuotaRow) : Bool :=
  opaqueId key.id && q.windowStart < q.windowEnd && 0 < q.reservedAmount &&
    q.actualAmount ≤ q.reservedAmount && q.createdAt < q.expiresAt && q.createdAt ≤ q.updatedAt &&
    q.createdAt < q.retentionUntil && q.caseId.isSome == q.jobId.isSome

inductive ArtifactKind where
  | source | runLog | runOutput | bundle | backupManifest
  deriving DecidableEq, Repr

inductive ArtifactStatus where
  | pending | available | deleting | deleted | failed
  deriving DecidableEq, Repr

inductive RetentionClass where
  | backup | bundle | run | source
  deriving DecidableEq, Repr

structure ArtifactRow where
  caseId : String
  kind : ArtifactKind
  sha256 : String
  byteCount : Nat
  objectKey : String
  retentionClass : RetentionClass
  createdAt : Instant
  retentionUntil : Instant
  deletedAt : Option Instant
  status : ArtifactStatus
  providerEtag : Option String
  verifiedAt : Option Instant
  failureCode : Option String
  version : Nat
  updatedAt : Instant
  deriving DecidableEq, Repr

inductive DeletionState where
  | requested | scheduled | running | completed | failed
  deriving DecidableEq, Repr

structure DeletionRow where
  requestedBy : String
  state : DeletionState
  scheduledAt : Option Instant
  completedAt : Option Instant
  auditTombstoneId : Option String
  failureCode : Option String
  claimOwner : Option String
  claimExpiresAt : Option Instant
  version : Nat
  createdAt : Instant
  updatedAt : Instant
  deriving DecidableEq, Repr

structure Db (ρ σ : Type) where
  now : Instant
  tenants : Table String TenantRow
  cases : Table Key (CaseRow ρ σ)
  jobs : Table Key JobRow
  idempotencyKeys : Table IdempotencyKey IdempotencyRow
  outboxEvents : Table Key OutboxRow
  auditEvents : Table Key AuditRow
  quotaLedger : Table Key QuotaRow
  artifacts : Table Key ArtifactRow
  deletionRequests : Table Key DeletionRow

/-- A database that holds tenants and nothing else. -/
def Db.initial (now : Instant) (tenants : Table String TenantRow) : Db ρ σ :=
  ⟨now, tenants, .empty, .empty, .empty, .empty, .empty, .empty, .empty, .empty⟩

/-- `reproforge_enforce_successor_version` -/
def successorVersion (oldVersion newVersion : Nat) (oldUpdatedAt newUpdatedAt : Instant) : Bool :=
  newVersion == oldVersion + 1 && oldUpdatedAt ≤ newUpdatedAt

/-- `reproforge_require_new_cancellation_timestamps`, also checked on insertion. -/
def cancellationTimestamps (j : JobRow) : Bool :=
  j.state != .cancelled || (j.cancellationRequestedAt.isSome && j.cancelledAt.isSome)

/-- `reproforge_enforce_job_transition` -/
def jobTransition (old new : JobRow) : Bool :=
  new.state == old.state ||
    (cancellationTimestamps new &&
      match old.state, new.state with
      | .queued, .running | .queued, .cancelled => true
      | .running, .queued | .running, .succeeded | .running, .failed | .running, .cancelled => true
      | _, _ => false)

/-- Every row trigger and CHECK constraint lets the update of a job through. -/
def jobUpdateAllowed (key : Key) (old new : JobRow) : Bool :=
  successorVersion old.version new.version old.updatedAt new.updatedAt && jobTransition old new &&
    (old.state == .cancelled || cancellationTimestamps new) && new.checks key

def caseUpdateAllowed (key : Key) (old new : CaseRow ρ σ) : Bool :=
  successorVersion old.version new.version old.updatedAt new.updatedAt && new.checks key

def outboxUpdateAllowed (key : Key) (old new : OutboxRow) : Bool :=
  successorVersion old.version new.version old.updatedAt new.updatedAt && new.checks key

end ReproForge
