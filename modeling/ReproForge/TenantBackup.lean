import ReproForge.Artifacts
import ReproForge.Platform

/-!
# Tenant backups

The manifest of a tenant backup with the schema that every archive passes, and
the archive: the manifest under its hash, beside the bodies of the artifacts.
-/
namespace ReproForge

open KeyedTable

variable {ρ σ : Type}

/-! ## Errors -/

inductive TenantBackupErrorCode where
  | corrupt | failed | notFound | notQuiescent | providerUnavailable | restoreFailed | restoreTargetExists
  | restoreVerificationFailed
  deriving DecidableEq, Repr

structure TenantBackupError where
  code : TenantBackupErrorCode
  message : String
  retryable : Bool
  deriving DecidableEq, Repr

def backupError (code : TenantBackupErrorCode) (message : String) : TenantBackupError := ⟨code, message, false⟩

def corrupt : TenantBackupError := backupError .corrupt "The tenant backup failed canonical integrity validation"

/-! ## The manifest -/

structure BackupCancellation where
  cancelledAt : Option Instant
  requestedAt : Option Instant
  deriving DecidableEq, Repr

structure TenantBackupReproduction (ρ σ : Type) where
  cancellation : BackupCancellation
  caseRetentionUntil : Instant
  idempotencyCreatedAt : Instant
  idempotencyExpiresAt : Instant
  jobMaxAttempts : Nat
  jobNextAttemptAt : Instant
  jobRetentionUntil : Instant
  record : DurableReproductionRecord ρ σ
  sourceDescriptor : SourceDescriptor σ
  sourceKind : SourceKind
  deriving DecidableEq

structure TenantBackupEvidence where
  attempt : Nat
  caseId : String
  commandHash : Option String
  createdAt : Instant
  durationMs : Option Nat
  environment : String
  evidence : String
  exitCode : Option Int
  jobId : String
  kind : EvidenceKind
  leaseOwner : Option String
  passed : Option Bool
  retentionUntil : Instant
  sequence : Nat
  tenantId : String
  deriving DecidableEq, Repr

structure BackupTenant where
  createdAt : Instant
  retentionUntil : Option Instant
  status : TenantStatus
  tenantId : String
  updatedAt : Instant
  deriving DecidableEq, Repr

structure TenantBackupManifest (ρ σ : Type) where
  artifacts : List ArtifactDescriptor
  createdAt : Instant
  evidence : List TenantBackupEvidence
  reproductions : List (TenantBackupReproduction ρ σ)
  schemaVersion : String
  tenant : BackupTenant
  deriving DecidableEq

/-! ## Its schema -/

/-- `TERMINAL_CASE_STATES` -/
def CaseState.terminal (s : CaseState) : Bool := (allowedTransitions s).isEmpty

section schema

variable [ResultDocument ρ] [RequestDocument σ]

/-- `durableRecordSchema` -/
def durableRecordValid (record : DurableReproductionRecord ρ σ) : Bool :=
  opaqueId record.callerId && opaqueId record.caseId && hexDigest 64 record.commandHash &&
    datetime record.createdAt && 1 ≤ utf16Length record.idempotencyKey &&
    utf16Length record.idempotencyKey ≤ 128 && opaqueId record.jobId &&
    record.repositoryRequest.all RequestDocument.valid && record.requestedBudget.all RequestedBudget.valid &&
    record.snapshot.valid && opaqueId record.tenantId && datetime record.updatedAt && 1 ≤ record.version &&
    record.version ≤ maxSafeInteger && record.caseId == record.snapshot.case.id &&
    record.jobId == record.snapshot.job.id && record.caseId == record.snapshot.job.caseId &&
    record.createdAt ≤ record.updatedAt && record.snapshot.job.failure.all sanitizedFailure

namespace TenantBackupReproduction

def datetimes (r : TenantBackupReproduction ρ σ) : Bool :=
  r.cancellation.cancelledAt.all datetime && r.cancellation.requestedAt.all datetime &&
    datetime r.caseRetentionUntil && datetime r.idempotencyCreatedAt && datetime r.idempotencyExpiresAt &&
    datetime r.jobNextAttemptAt && datetime r.jobRetentionUntil

/-- The timestamps of a cancellation belong to a cancelled job, and come together. -/
def cancellationMatches (r : TenantBackupReproduction ρ σ) : Bool :=
  (r.record.snapshot.job.state == .cancelled) ==
      (r.cancellation.requestedAt.isSome && r.cancellation.cancelledAt.isSome) &&
    r.cancellation.requestedAt.isNone == r.cancellation.cancelledAt.isNone

def bounds (r : TenantBackupReproduction ρ σ) : Bool :=
  r.record.createdAt < r.caseRetentionUntil && r.record.snapshot.job.createdAt < r.jobRetentionUntil &&
    r.idempotencyCreatedAt < r.idempotencyExpiresAt && r.record.snapshot.job.attempt ≤ r.jobMaxAttempts

/-- `tenantBackupReproductionSchema` -/
def valid (r : TenantBackupReproduction ρ σ) : Bool :=
  r.datetimes && 1 ≤ r.jobMaxAttempts && r.jobMaxAttempts ≤ 100 && durableRecordValid r.record &&
    r.record.snapshot.case.state.terminal && r.record.snapshot.job.state.terminal && r.cancellationMatches &&
    (r.record.snapshot.job.state != .succeeded || r.record.snapshot.case.state == .verified) && r.bounds

end TenantBackupReproduction

def safeInteger (n : Int) : Bool := n.natAbs ≤ maxSafeInteger

/-- `tenantBackupEvidenceSchema` -/
def TenantBackupEvidence.valid (e : TenantBackupEvidence) : Bool :=
  1 ≤ e.attempt && e.attempt ≤ 100 && opaqueId e.caseId && e.commandHash.all (hexDigest 64) &&
    datetime e.createdAt && e.durationMs.all (· ≤ maxSafeInteger) && e.exitCode.all safeInteger &&
    opaqueId e.jobId && e.leaseOwner.all opaqueId && datetime e.retentionUntil && 1 ≤ e.sequence &&
    e.sequence ≤ maxSafeInteger && opaqueId e.tenantId && e.createdAt < e.retentionUntil

def BackupTenant.valid (t : BackupTenant) : Bool :=
  datetime t.createdAt && t.retentionUntil.all datetime && t.status == .active && opaqueId t.tenantId &&
    datetime t.updatedAt

namespace TenantBackupManifest

/-- No two elements agree, as a loop over a `Set` finds out. -/
def unique {α : Type} [DecidableEq α] (items : List α) : Bool := items.Nodup

def reproductionsAgree (m : TenantBackupManifest ρ σ) : Bool :=
  m.reproductions.all (fun r => r.record.tenantId == m.tenant.tenantId) &&
    unique (m.reproductions.map (fun r => r.record.caseId)) &&
    unique (m.reproductions.map (fun r => r.record.jobId)) &&
    unique (m.reproductions.map (fun r => (r.record.callerId, r.record.idempotencyKey)))

/-- Each piece of evidence belongs to an attempt of a reproduction. -/
def evidenceAgrees (m : TenantBackupManifest ρ σ) : Bool :=
  m.evidence.all (fun e =>
    e.tenantId == m.tenant.tenantId &&
      (m.reproductions.find? (fun r => r.record.jobId == e.jobId)).any (fun r =>
        r.record.caseId == e.caseId && e.attempt ≤ r.record.snapshot.job.attempt)) &&
    unique (m.evidence.map (fun e => (e.jobId, e.attempt, e.sequence)))

def artifactsAgree (m : TenantBackupManifest ρ σ) : Bool :=
  m.artifacts.all (fun a =>
    a.tenantId == m.tenant.tenantId && m.reproductions.any (fun r => r.record.caseId == a.caseId)) &&
    unique (m.artifacts.map ArtifactDescriptor.artifactId) &&
    unique (m.artifacts.map ArtifactDescriptor.objectKey)

/-- A successful reproduction has a bundle. -/
def bundled (m : TenantBackupManifest ρ σ) : Bool :=
  m.reproductions.all (fun r =>
    r.record.snapshot.job.state != .succeeded ||
      m.artifacts.any (fun a => a.caseId == r.record.caseId && a.kind == .bundle))

/-- `tenantBackupManifestSchema` -/
def valid (m : TenantBackupManifest ρ σ) : Bool :=
  m.artifacts.all ArtifactDescriptor.valid && datetime m.createdAt &&
    m.evidence.all TenantBackupEvidence.valid && m.reproductions.all TenantBackupReproduction.valid &&
    m.schemaVersion == "1.0" && m.tenant.valid && m.reproductionsAgree && m.evidenceAgrees && m.artifactsAgree &&
    m.bundled

end TenantBackupManifest

end schema

/-! ## Archives -/

/-- The SHA-256 of the canonical JSON of a manifest, in lower-case hexadecimal digits. -/
class ManifestHash (ρ σ : Type) where
  tenantBackupManifestSha256 : TenantBackupManifest ρ σ → String
  hex : ∀ m, hexDigest 64 (tenantBackupManifestSha256 m) = true

export ManifestHash (tenantBackupManifestSha256)

/-- The bodies of the objects under their paths. -/
abbrev Bodies := Table String (List UInt8)

def bodies (entries : List (String × List UInt8)) : Bodies :=
  entries.foldl (fun t e => t.insert e.1 e.2) .empty

structure TenantBackupArchive (ρ σ : Type) where
  manifest : TenantBackupManifest ρ σ
  manifestSha256 : String
  objects : Bodies

variable [ContentHash] [ManifestHash ρ σ] [ResultDocument ρ] [RequestDocument σ]

/-- The body of an artifact, unless it has not the recorded size and digest. -/
def checkedBody (objects : Bodies) (a : ArtifactDescriptor) : Option (String × List UInt8) :=
  (objects.get a.objectKey).bind (fun body =>
    if body.length == a.byteCount && ContentHash.sha256 body == a.sha256 then some (a.objectKey, body) else none)

/-- The sorted key lists agree when one list is a permutation of the other. -/
def verifyTenantBackupArchive (raw : TenantBackupArchive ρ σ) :
    Except TenantBackupError (TenantBackupArchive ρ σ) :=
  if !raw.manifest.valid then .error corrupt
  else if raw.manifestSha256 != tenantBackupManifestSha256 raw.manifest then .error corrupt
  else if !(raw.manifest.artifacts.map ArtifactDescriptor.objectKey).isPerm (raw.objects.rows.map Prod.fst) then
    .error corrupt
  else
    match raw.manifest.artifacts.mapM (checkedBody raw.objects) with
    | none => .error corrupt
    | some entries => .ok ⟨raw.manifest, raw.manifestSha256, bodies entries⟩

def sealTenantBackupArchive (manifest : TenantBackupManifest ρ σ) (objects : Bodies) :
    Except TenantBackupError (TenantBackupArchive ρ σ) :=
  if !manifest.valid then .error corrupt
  else verifyTenantBackupArchive ⟨manifest, tenantBackupManifestSha256 manifest, objects⟩

def backupArtifactByteCount (artifacts : List ArtifactDescriptor) : Nat :=
  (artifacts.map ArtifactDescriptor.byteCount).sum

end ReproForge
