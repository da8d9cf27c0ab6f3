import ReproForge.TenantBackup
import ReproForge.DurableRows

/-!
# The backup service

`PostgresTenantBackupService`: how a tenant is read from the tables into an
archive, and the transaction that writes an archive back into them.
-/
namespace ReproForge

open KeyedTable Transactions Transactions.Tx

variable {ρ σ α : Type}

/-! ## The order of a query -/

/-- How the database orders texts. -/
class Collation where
  le : String → String → Bool
  trans : ∀ a b c, le a b = true → le b c = true → le a c = true
  total : ∀ a b, (le a b || le b a) = true
  antisymm : ∀ a b, le a b = true → le b a = true → a = b

inductive SortValue where
  | text (s : String)
  | number (n : Nat)
  deriving DecidableEq, Repr

section order

variable [Collation]

def SortValue.le : SortValue → SortValue → Bool
  | .text a, .text b => Collation.le a b
  | .number a, .number b => a ≤ b
  | .text _, .number _ => true
  | .number _, .text _ => false

/-- The columns of an `ORDER BY`, one after another. -/
def columnsLE : List SortValue → List SortValue → Bool
  | [], _ => true
  | _ :: _, [] => false
  | a :: as, b :: bs => if a = b then columnsLE as bs else a.le b

def orderBy (columns : α → List SortValue) (rows : List α) : List α :=
  rows.mergeSort fun a b => columnsLE (columns a) (columns b)

end order

/-! ## Errors -/

inductive BackupFailure where
  | backup (e : TenantBackupError)
  /-- A schema rejected a row. -/
  | schema
  | database (e : DurableError)
  deriving DecidableEq, Repr

def backupRefused (code : TenantBackupErrorCode) (message : String) (retryable : Bool) : BackupFailure :=
  .backup ⟨code, message, retryable⟩

def corruptState (message : String) : BackupFailure := backupRefused .corrupt message false

/-! ## Reading a tenant -/

def rowReproduction (row : DurableRow ρ σ) (version attempt maxAttempts : Nat) (failure : Option JobFailure) :
    TenantBackupReproduction ρ σ where
  cancellation := ⟨row.job.cancelledAt, row.job.cancellationRequestedAt⟩
  caseRetentionUntil := row.case.retentionUntil
  idempotencyCreatedAt := row.idempotency.createdAt
  idempotencyExpiresAt := row.idempotency.expiresAt
  jobMaxAttempts := maxAttempts
  jobNextAttemptAt := row.job.nextAttemptAt
  jobRetentionUntil := row.job.retentionUntil
  record :=
    { callerId := row.key.callerId
      caseId := row.idempotency.caseId
      commandHash := row.idempotency.commandHash
      createdAt := row.case.createdAt
      idempotencyKey := row.key.idempotencyKey
      jobId := row.idempotency.jobId
      requestedBudget := none
      repositoryRequest := none
      snapshot := rowSnapshot row attempt failure
      tenantId := row.key.tenantId
      updatedAt := row.case.updatedAt
      version := version }
  sourceDescriptor := row.case.sourceDescriptor
  sourceKind := row.case.sourceKind

def mapReproduction [ResultDocument ρ] (row : DurableRow ρ σ) :
    Except BackupFailure (TenantBackupReproduction ρ σ) :=
  match integer row.case.version, integer row.job.version with
  | some version, some jobVersion =>
    if version ≠ jobVersion then .error (corruptState "The durable case and job versions do not agree")
    else
      match jobFailure row.job, integer row.job.attempt with
      | some failure, some attempt =>
        if !(rowSnapshot row attempt failure).valid then
          .error (corruptState "The stored reproduction snapshot is invalid")
        else
          match integer row.job.maxAttempts with
          | none => .error (corruptState "The stored tenant numeric value is invalid")
          | some maxAttempts => .ok (rowReproduction row version attempt maxAttempts failure)
      | _, _ => .error (corruptState "The stored reproduction snapshot is invalid")
  | _, _ => .error (corruptState "The stored tenant numeric value is invalid")

def mapEvidence (row : EvidenceKey × EvidenceRow) : Except BackupFailure TenantBackupEvidence :=
  let (key, e) := row
  if key.attempt ≤ maxSafeInteger && key.sequence ≤ maxSafeInteger && e.durationMs.all (· ≤ maxSafeInteger) &&
      e.exitCode.all safeInteger then
    .ok
      { attempt := key.attempt
        caseId := e.caseId
        commandHash := e.commandHash
        createdAt := e.createdAt
        durationMs := e.durationMs
        environment := e.environment
        evidence := e.evidence
        exitCode := e.exitCode
        jobId := key.jobId
        kind := e.kind
        leaseOwner := e.leaseOwner
        passed := e.passed
        retentionUntil := e.retentionUntil
        sequence := key.sequence
        tenantId := key.tenantId }
  else .error (corruptState "The stored tenant numeric value is invalid")

def mapArtifact (row : Key × ArtifactRow) : Except BackupFailure ArtifactDescriptor :=
  (rowDescriptor row.1 row.2).elim (.error .schema) .ok

/-- What a read of the blob client replies. -/
abbrev BlobReader := String → Nat → Except Unit (Option (List UInt8 × Objects.Metadata String))

/-- The body of an artifact under its path, if the store has it as the row says. -/
def readObject (read : BlobReader) (entry : (Key × ArtifactRow) × ArtifactDescriptor) :
    Except BackupFailure (String × List UInt8) :=
  match read entry.2.objectKey entry.2.byteCount with
  | .error _ =>
    .error (backupRefused .providerUnavailable "The private artifact provider is unavailable during backup" true)
  | .ok none => .error (corruptState "The private artifact metadata does not match durable state")
  | .ok (some (bytes, metadata)) =>
    if metadata.pathname = entry.2.objectKey ∧ metadata.size = entry.2.byteCount ∧
        some metadata.etag = entry.1.2.providerEtag then
      .ok (entry.2.objectKey, bytes)
    else .error (corruptState "The private artifact metadata does not match durable state")

/-- The counts under which a tenant may be exported. No code sets `deleted_at` of a case. -/
def quiescent (db : Db ρ σ) (tenantId : String) : Bool :=
  let cases := db.cases.select fun k _ => k.tenantId == tenantId
  let jobs := db.jobs.select fun k _ => k.tenantId == tenantId
  let artifacts := db.artifacts.select fun k _ => k.tenantId == tenantId
  cases.length == jobs.length &&
    cases.length == (db.idempotencyKeys.select fun k _ => k.tenantId == tenantId).length &&
    artifacts.length == (artifacts.filter fun row => row.2.status == .available).length &&
    (cases.filter fun row => !row.2.state.terminal).length == 0 &&
    (jobs.filter fun row => !row.2.state.terminal).length == 0

section archive

variable [Collation] [ContentHash] [ManifestHash ρ σ] [ResultDocument ρ] [RequestDocument σ]

def reproductionColumns (row : DurableRow ρ σ) : List SortValue :=
  [.text row.idempotency.caseId, .text row.idempotency.jobId, .text row.key.callerId, .text row.key.idempotencyKey]

def evidenceColumns (row : EvidenceKey × EvidenceRow) : List SortValue :=
  [.text row.1.jobId, .number row.1.attempt, .number row.1.sequence]

def artifactColumns (row : Key × ArtifactRow) : List SortValue :=
  [.text row.2.caseId, .text row.2.kind.text, .text row.1.id]

def reproductionRows (p : Platform ρ σ) (tenantId : String) : List (DurableRow ρ σ) :=
  orderBy reproductionColumns ((durableSelect p.db).filter fun row => row.key.tenantId == tenantId)

def evidenceRows (p : Platform ρ σ) (tenantId : String) : List (EvidenceKey × EvidenceRow) :=
  orderBy evidenceColumns (p.runEvidence.select fun k _ => k.tenantId == tenantId)

def artifactRows (p : Platform ρ σ) (tenantId : String) : List (Key × ArtifactRow) :=
  orderBy artifactColumns (p.db.artifacts.select fun k a => k.tenantId == tenantId && a.status == .available)

def backupTenant (tenantId : String) (t : TenantRow) : BackupTenant where
  createdAt := t.createdAt
  retentionUntil := t.retentionUntil
  status := t.status
  tenantId := tenantId
  updatedAt := t.updatedAt

def buildArchive (read : BlobReader) (p : Platform ρ σ) (tenantId : String) (createdAt : Instant) :
    Except BackupFailure (TenantBackupArchive ρ σ) :=
  match p.db.tenants.get tenantId with
  | none => .error (backupRefused .notFound "The tenant backup source was not found" false)
  | some tenant =>
    if tenant.status ≠ .active then
      .error (backupRefused .notQuiescent "The tenant must be active and quiescent before export" false)
    else if !quiescent p.db tenantId then
      .error (backupRefused .notQuiescent
        "The tenant backup requires terminal one-to-one reproduction state and available artifacts" false)
    else do
      let reproductions ← (reproductionRows p tenantId).mapM mapReproduction
      let evidence ← (evidenceRows p tenantId).mapM mapEvidence
      let artifacts ← (artifactRows p tenantId).mapM mapArtifact
      let objects ← ((artifactRows p tenantId).zip artifacts).mapM (readObject read)
      let manifest : TenantBackupManifest ρ σ :=
        ⟨artifacts, createdAt, evidence, reproductions, "1.0", backupTenant tenantId tenant⟩
      if manifest.valid then
        match sealTenantBackupArchive manifest (bodies objects) with
        | .ok archive => .ok archive
        | .error e => .error (.backup e)
      else .error (corruptState "The durable tenant state cannot form a canonical backup manifest")

end archive

/-! ## Writing a tenant -/

/-- An entry of the map that `uploadObjects` returns. -/
structure Uploaded where
  created : Bool
  metadata : Objects.Metadata String
  deriving DecidableEq

abbrev Uploads := Table String Uploaded

abbrev RestoreStatement (ρ σ α : Type) := Tx (Platform ρ σ) BackupFailure α

namespace RestoreStatement

def lift (operation : Statement ρ σ α) : RestoreStatement ρ σ α := fun p =>
  match operation p.db with
  | (.ok a, db) => (.ok a, { p with db := db })
  | (.error e, db) => (.error (.database e), { p with db := db })

def insertTenant (id : String) (row : TenantRow) : Statement ρ σ Unit := fun db =>
  if (db.tenants.get id).isNone && opaqueId id && row.checks then
    (.ok (), { db with tenants := db.tenants.insert id row })
  else (.error .constraint, db)

def insertRestoreSession (tenantId : String) (row : RestoreSessionRow) : RestoreStatement ρ σ Unit := fun p =>
  if (p.restoreSessions.get tenantId).isNone && (p.db.tenants.get tenantId).isSome && row.checks then
    (.ok (), { p with restoreSessions := p.restoreSessions.insert tenantId row })
  else (.error (.database .constraint), p)

/-- `reproforge_require_evidence_lease` -/
def evidenceLease (p : Platform ρ σ) (key : EvidenceKey) (row : EvidenceRow) : Bool :=
  (p.restoreSessions.get key.tenantId).any (fun session => session.state == .running) ||
    row.leaseOwner.any fun owner =>
      (p.db.jobs.get ⟨key.tenantId, key.jobId⟩).any fun job =>
        job.caseId == row.caseId && job.state == .running && job.attempt == key.attempt &&
          job.leaseOwner == some owner && job.leaseAcquiredAt.any (· ≤ row.createdAt) &&
          job.leaseExpiresAt.any (row.createdAt < ·)

def insertRunEvidence (key : EvidenceKey) (row : EvidenceRow) : RestoreStatement ρ σ Unit := fun p =>
  if evidenceLease p key row && (p.runEvidence.get key).isNone && jobExists p.db key.tenantId row.caseId key.jobId &&
      row.checks key then
    (.ok (), { p with runEvidence := p.runEvidence.insert key row })
  else (.error (.database .constraint), p)

/-- An artifact that is inserted as `AVAILABLE`. -/
def insertRestoredArtifact (key : Key) (row : ArtifactRow) : Statement ρ σ Unit := fun db =>
  if (db.artifacts.get key).isNone &&
      (db.artifacts.find? fun k a =>
        k.tenantId == key.tenantId && a.caseId == row.caseId && a.kind == row.kind && a.sha256 == row.sha256).isNone &&
      (db.artifacts.find? fun _ a => a.objectKey == row.objectKey).isNone &&
      (db.cases.get ⟨key.tenantId, row.caseId⟩).isSome && row.checks key then
    (.ok (), { db with artifacts := db.artifacts.insert key row })
  else (.error .constraint, db)

end RestoreStatement

open RestoreStatement

def restoredTenant (t : BackupTenant) : TenantRow := ⟨.active, t.createdAt, t.updatedAt, none, t.retentionUntil⟩

def restoredDomain (record : DurableReproductionRecord ρ σ) : CaseDomain ρ := serializeCaseDomain record

def restoredCase (r : TenantBackupReproduction ρ σ) : CaseRow ρ σ where
  sourceKind := r.sourceKind
  sourceDescriptor := r.sourceDescriptor
  state := r.record.snapshot.case.state
  domainState := restoredDomain r.record
  schemaVersion := r.record.snapshot.schemaVersion
  version := r.record.version
  createdAt := r.record.createdAt
  updatedAt := r.record.updatedAt
  retentionUntil := r.caseRetentionUntil

def restoredJob (r : TenantBackupReproduction ρ σ) : JobRow where
  caseId := r.record.caseId
  state := r.record.snapshot.job.state
  progressPhase := r.record.snapshot.job.progressPhase
  attempt := r.record.snapshot.job.attempt
  maxAttempts := r.jobMaxAttempts
  nextAttemptAt := r.jobNextAttemptAt
  leaseOwner := none
  leaseAcquiredAt := none
  leaseExpiresAt := none
  cancellationRequestedAt := r.cancellation.requestedAt
  cancelledAt := r.cancellation.cancelledAt
  failureCode := r.record.snapshot.job.failure.map JobFailure.code
  failureMessage := r.record.snapshot.job.failure.map JobFailure.message
  failureRetryable := r.record.snapshot.job.failure.map JobFailure.retryable
  version := r.record.version
  createdAt := r.record.snapshot.job.createdAt
  updatedAt := r.record.snapshot.job.updatedAt
  retentionUntil := r.jobRetentionUntil

def restoredIdempotency (r : TenantBackupReproduction ρ σ) : IdempotencyRow where
  commandHash := r.record.commandHash
  caseId := r.record.caseId
  jobId := r.record.jobId
  createdAt := r.idempotencyCreatedAt
  expiresAt := r.idempotencyExpiresAt

def restoredEvidence (e : TenantBackupEvidence) : EvidenceRow where
  caseId := e.caseId
  kind := e.kind
  commandHash := e.commandHash
  exitCode := e.exitCode
  passed := e.passed
  durationMs := e.durationMs
  environment := e.environment
  evidence := e.evidence
  leaseOwner := e.leaseOwner
  createdAt := e.createdAt
  retentionUntil := e.retentionUntil

def restoredArtifact (restoredAt : Instant) (etag : String) (a : ArtifactDescriptor) : ArtifactRow where
  caseId := a.caseId
  kind := a.kind
  sha256 := a.sha256
  byteCount := a.byteCount
  objectKey := a.objectKey
  retentionClass := retentionClass a.kind
  createdAt := a.createdAt
  retentionUntil := a.retentionUntil
  deletedAt := none
  status := .available
  providerEtag := some etag
  verifiedAt := some (max restoredAt a.createdAt)
  failureCode := none
  version := 1
  updatedAt := max restoredAt a.createdAt

def restoreSession (archive : TenantBackupArchive ρ σ) (requestedBy : String) (restoredAt : Instant) :
    RestoreSessionRow where
  backupSha256 := archive.manifestSha256
  requestedBy := requestedBy
  state := .running
  caseCount := archive.manifest.reproductions.length
  evidenceCount := archive.manifest.evidence.length
  artifactCount := archive.manifest.artifacts.length
  byteCount := backupArtifactByteCount archive.manifest.artifacts
  startedAt := restoredAt
  completedAt := none
  verifiedAt := none

def insertReproduction (tenantId : String) (r : TenantBackupReproduction ρ σ) : RestoreStatement ρ σ Unit := lift do
  insertCase ⟨tenantId, r.record.caseId⟩ (restoredCase r)
  insertJob ⟨tenantId, r.record.jobId⟩ (restoredJob r)
  insertIdempotencyKey ⟨tenantId, r.record.callerId, r.record.idempotencyKey⟩ (restoredIdempotency r)

def insertEvidence (tenantId : String) (e : TenantBackupEvidence) : RestoreStatement ρ σ Unit :=
  insertRunEvidence ⟨tenantId, e.jobId, e.attempt, e.sequence⟩ (restoredEvidence e)

def insertArtifactRow (tenantId : String) (uploads : Uploads) (restoredAt : Instant) (a : ArtifactDescriptor) :
    RestoreStatement ρ σ Unit := do
  let uploaded ← demand (uploads.get a.objectKey)
    (backupRefused .restoreFailed "The restored private object metadata is unavailable" false)
  lift (insertRestoredArtifact ⟨tenantId, a.artifactId⟩ (restoredArtifact restoredAt uploaded.metadata.etag a))

/-- `UPDATE tenant_restore_sessions SET state = 'RESTORED'` -/
def completeRestore (tenantId manifestSha256 : String) (restoredAt : Instant) : RestoreStatement ρ σ Unit := fun p =>
  match p.restoreSessions.get tenantId with
  | none => (.error (backupRefused .restoreFailed "The tenant restore ledger could not be completed" false), p)
  | some session =>
    if session.backupSha256 = manifestSha256 ∧ session.state = .running then
      (.ok (), { p with
        restoreSessions := p.restoreSessions.set tenantId
          { session with state := .restored, completedAt := some restoredAt } })
    else (.error (backupRefused .restoreFailed "The tenant restore ledger could not be completed" false), p)

/-- The ledger says that this archive was restored. -/
def RestoreSessionRow.holds (manifestSha256 : String) (session : RestoreSessionRow) : Bool :=
  session.backupSha256 == manifestSha256 && (session.state == .restored || session.state == .verified)

/-- The part of the transaction that writes a tenant that is not there. -/
def writeTenant (archive : TenantBackupArchive ρ σ) (requestedBy : String) (uploads : Uploads) (restoredAt : Instant) :
    RestoreStatement ρ σ Unit := do
  let tenantId := archive.manifest.tenant.tenantId
  lift (insertTenant tenantId (restoredTenant archive.manifest.tenant))
  insertRestoreSession tenantId (restoreSession archive requestedBy restoredAt)
  let _ ← forEach (insertReproduction tenantId) archive.manifest.reproductions
  let _ ← forEach (insertEvidence tenantId) archive.manifest.evidence
  let _ ← forEach (insertArtifactRow tenantId uploads restoredAt) archive.manifest.artifacts
  completeRestore tenantId archive.manifestSha256 restoredAt

/-- `restoreTransaction`, under the lock of its tenant. -/
def restoreTransaction (archive : TenantBackupArchive ρ σ) (requestedBy : String) (uploads : Uploads)
    (restoredAt : Instant) : RestoreStatement ρ σ Bool := do
  let p ← read
  match p.db.tenants.get archive.manifest.tenant.tenantId with
  | some _ =>
    if (p.restoreSessions.get archive.manifest.tenant.tenantId).any (·.holds archive.manifestSha256) then pure false
    else
      fail (backupRefused .restoreTargetExists "The tenant restore target already contains different state" false)
  | none => do
    writeTenant archive requestedBy uploads restoredAt
    pure true

end ReproForge
