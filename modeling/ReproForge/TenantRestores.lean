import ReproForge.BackupRoundTrip
import ReproForge.Runs

/-!
# Restores under way

`restoreTenant` as it is called any number of times at once on one database and
one store. Between two awaits a call does what is one step here: a query, a
transaction or a request to the store, any of which may fail.
-/
namespace ReproForge

open KeyedTable Transactions

variable {ρ σ : Type}

/-! ## A call -/

structure TenantRestoreResult where
  artifactCount : Nat
  caseCount : Nat
  evidenceCount : Nat
  manifestSha256 : String
  restored : Bool
  tenantId : String
  deriving DecidableEq, Repr

def summary (archive : TenantBackupArchive ρ σ) (restored : Bool) : TenantRestoreResult where
  artifactCount := archive.manifest.artifacts.length
  caseCount := archive.manifest.reproductions.length
  evidenceCount := archive.manifest.evidence.length
  manifestSha256 := archive.manifestSha256
  restored := restored
  tenantId := archive.manifest.tenant.tenantId

/-- Where a call waits, with what it has gathered by then. -/
inductive RestorePhase where
  /-- For the target. -/
  | inspecting
  /-- For the upload of the first artifact of a list. -/
  | uploading (rest : List ArtifactDescriptor) (uploads : Uploads)
  /-- For the object that an upload collided with. -/
  | comparing (artifact : ArtifactDescriptor) (rest : List ArtifactDescriptor) (uploads : Uploads)
  /-- For the deletion of an upload that came back under wrong metadata. -/
  | discarding (artifact : ArtifactDescriptor) (etag : String) (uploads : Uploads)
  /-- For the deletion of what it created, after an upload failed. -/
  | removing (objects : List (String × String)) (error : BackupFailure)
  | committing (uploads : Uploads)
  /-- For the rows that refer to an object, after the transaction failed. -/
  | checking (objectKey etag : String) (entries : List (String × Uploaded)) (error : BackupFailure)
  /-- For the deletion of an object to which no row referred. -/
  | deleting (objectKey etag : String) (entries : List (String × Uploaded)) (error : BackupFailure)
  | verifying (restored : Bool)
  | rebuilding (restored : Bool)
  | marking (restored : Bool)
  | settled (result : Except BackupFailure TenantRestoreResult)

structure RestoreCall (ρ σ : Type) where
  archive : TenantBackupArchive ρ σ
  requestedBy : String
  phase : RestorePhase

namespace RestorePhase

def fails (code : TenantBackupErrorCode) (message : String) (retryable : Bool) : RestorePhase :=
  .settled (.error (backupRefused code message retryable))

/-- The objects that a map of uploads says were created. -/
def createdOf (entries : List (String × Uploaded)) : List (String × String) :=
  (entries.filter fun e => e.2.created).map fun e => (e.1, e.2.metadata.etag)

def upload (rest : List ArtifactDescriptor) (uploads : Uploads) : RestorePhase :=
  if rest.isEmpty then .committing uploads else .uploading rest uploads

/-- The `catch` of `uploadObjects`. -/
def abandon (uploads : Uploads) (error : BackupFailure) : RestorePhase :=
  if (createdOf uploads.rows).isEmpty then .settled (.error error) else .removing (createdOf uploads.rows) error

/-- The loop of `cleanupUnreferenced`. -/
def cleanup : List (String × Uploaded) → BackupFailure → RestorePhase
  | [], error => .settled (.error error)
  | (objectKey, u) :: rest, error =>
    if u.created then .checking objectKey u.metadata.etag rest error else cleanup rest error

/-- An upload, or an object that was there, whose metadata is looked at. -/
def uploaded (artifact : ArtifactDescriptor) (created : Bool) (metadata : Objects.Metadata String)
    (rest : List ArtifactDescriptor) (uploads : Uploads) : RestorePhase :=
  if metadata.pathname = artifact.objectKey ∧ metadata.size = artifact.byteCount then
    upload rest (uploads.insert artifact.objectKey ⟨created, metadata⟩)
  else if created then .discarding artifact metadata.etag uploads
  else abandon uploads (corruptState "The restored private object metadata is invalid")

end RestorePhase

/-- The object has the bytes of the archive. -/
def sameBody (artifact : ArtifactDescriptor) (body bytes : List UInt8) : Bool :=
  bytes.length == artifact.byteCount && bytes.isPrefixOf body

/-- The error that `restoreTenant` makes of that of its transaction. -/
def restoreFailure : BackupFailure → BackupFailure
  | .backup e => .backup e
  | .schema | .database _ => backupRefused .restoreFailed "The tenant restore transaction failed" true

def holdsRestore (p : Platform ρ σ) (archive : TenantBackupArchive ρ σ) : Bool :=
  (p.db.tenants.get archive.tenantId).isSome &&
    (p.restoreSessions.get archive.tenantId).any fun session => session.holds archive.manifestSha256

/-- `UPDATE tenant_restore_sessions SET state = 'VERIFIED'` -/
def markVerified (archive : TenantBackupArchive ρ σ) (now : Instant) (p : Platform ρ σ) :
    Except BackupFailure Unit × Platform ρ σ :=
  match p.restoreSessions.get archive.tenantId with
  | none => (.ok (), p)
  | some session =>
    if session.holds archive.manifestSha256 then
      (.ok (), { p with
        restoreSessions := p.restoreSessions.set archive.tenantId
          { session with state := .verified, verifiedAt := some (session.completedAt.elim now (max now)) } })
    else (.ok (), p)

/-! ## A step -/

/-- What a call waited for comes back. -/
inductive RestoreAction (ρ σ : Type) where
  | call (raw : TenantBackupArchive ρ σ) (requestedBy : String)
  | inspect (answers : Bool)
  | put (fate : Objects.Fate) (etag : String)
  | compare (fate : Objects.Fate)
  | discard (fate : Objects.Fate)
  | remove (objectKey : String) (fate : Objects.Fate)
  | commit (fate : Objects.Fate) (restoredAt : Instant)
  | check (answers : Bool)
  | delete (fate : Objects.Fate)
  | readLedger (answers : Bool)
  /-- What `buildArchive` makes of its reads. -/
  | rebuild (reply : Except BackupFailure (TenantBackupArchive ρ σ))
  | mark (fate : Objects.Fate) (now : Instant)

/-- What a call did to the store and the database. -/
inductive RestoreAct where
  | created (objectKey etag : String)
  | removed (objectKey etag : String)
  | committed (uploads : Uploads) (restoredAt : Instant)

structure Restoring (ρ σ : Type) where
  platform : Platform ρ σ
  store : Objects.Store String
  calls : Nat → Option (RestoreCall ρ σ)
  acts : List (Nat × RestoreAct)

namespace Restoring

def initial (p : Platform ρ σ) (s : Objects.Store String) : Restoring ρ σ := ⟨p, s, fun _ => none, []⟩

/-- What a step of a call leaves. -/
structure Outcome (ρ σ : Type) where
  phase : RestorePhase
  platform : Platform ρ σ
  store : Objects.Store String
  acts : List RestoreAct

def goes (w : Restoring ρ σ) (phase : RestorePhase) : Outcome ρ σ := ⟨phase, w.platform, w.store, []⟩

def removal (w : Restoring ρ σ) (objectKey etag : String) (fate : Objects.Fate) (phase : RestorePhase) :
    Outcome ρ σ where
  phase := phase
  platform := w.platform
  store := (fate.call () (Objects.delete false objectKey (some etag) : _ → Except Unit Bool × _) w.store).2
  acts := if fate = .failsBefore then [] else [.removed objectKey etag]

section step

variable [ContentHash] [ManifestHash ρ σ] [ResultDocument ρ] [RequestDocument σ]

def begin (raw : TenantBackupArchive ρ σ) (requestedBy : String) : RestoreCall ρ σ :=
  match verifyTenantBackupArchive raw with
  | .error e => ⟨raw, requestedBy, .settled (.error (.backup e))⟩
  | .ok archive =>
    if opaqueId requestedBy then ⟨archive, requestedBy, .inspecting⟩
    else ⟨archive, requestedBy, .fails .restoreFailed "The restore requester identity is invalid" false⟩

variable (w : Restoring ρ σ) (archive : TenantBackupArchive ρ σ)

def inspected (answers : Bool) : RestorePhase :=
  if !answers then .fails .restoreFailed "The tenant restore target could not be inspected" true
  else if (w.platform.db.tenants.get archive.tenantId).isNone then .upload archive.manifest.artifacts .empty
  else if holdsRestore w.platform archive then .verifying false
  else .fails .restoreTargetExists "The tenant restore target already contains different state" false

def putObject (a : ArtifactDescriptor) (rest : List ArtifactDescriptor) (uploads : Uploads) (fate : Objects.Fate)
    (etag : String) : Outcome ρ σ :=
  match archive.objects.get a.objectKey with
  | none => w.goes (.abandon uploads (corruptState "The backup object body is missing"))
  | some body =>
    let created : List RestoreAct :=
      if fate = .failsBefore ∨ (w.store.get a.objectKey).isSome then [] else [.created a.objectKey etag]
    match fate.call () (Objects.put () a.objectKey body etag) w.store with
    | (.ok metadata, store) => ⟨.uploaded a true metadata rest uploads, w.platform, store, created⟩
    | (.error _, store) => ⟨.comparing a rest uploads, w.platform, store, created⟩

def compareObject (a : ArtifactDescriptor) (rest : List ArtifactDescriptor) (uploads : Uploads)
    (fate : Objects.Fate) : RestorePhase :=
  match (fate.call () (Objects.get () a.objectKey a.byteCount) w.store).1, archive.objects.get a.objectKey with
  | .ok (some (bytes, metadata)), some body =>
    if sameBody a body bytes then .uploaded a false metadata rest uploads
    else .abandon uploads (corruptState "An existing private object conflicts with the backup")
  | _, _ =>
    .abandon uploads
      (backupRefused .providerUnavailable "The private artifact provider is unavailable during restore" true)

def commitActs (requestedBy : String) (uploads : Uploads) (fate : Objects.Fate) (restoredAt : Instant) :
    List RestoreAct :=
  if fate = .failsBefore then []
  else
    match (restoreTransaction archive requestedBy uploads restoredAt w.platform).1 with
    | .ok true => [.committed uploads restoredAt]
    | _ => []

def commitRestore (requestedBy : String) (uploads : Uploads) (fate : Objects.Fate) (restoredAt : Instant) :
    Outcome ρ σ :=
  let committed := w.commitActs archive requestedBy uploads fate restoredAt
  match fate.call (.database .connection)
    (atomically (restoreTransaction archive requestedBy uploads restoredAt)) w.platform with
  | (.ok restored, p) => ⟨.verifying restored, p, w.store, committed⟩
  | (.error e, p) => ⟨.cleanup uploads.rows (restoreFailure e), p, w.store, committed⟩

def unverified : RestorePhase := .fails .restoreVerificationFailed "The restored tenant could not be verified" true

def ledgerRead (restored answers : Bool) : RestorePhase :=
  if !answers then unverified
  else if holdsRestore w.platform archive then .rebuilding restored
  else .fails .restoreVerificationFailed "The tenant restore ledger does not match the backup" false

def rebuilt (restored : Bool) : Except BackupFailure (TenantBackupArchive ρ σ) → RestorePhase
  | .error _ => unverified
  | .ok reply =>
    if reply.manifestSha256 = archive.manifestSha256 then .marking restored
    else .fails .restoreVerificationFailed "The restored tenant does not match the backup manifest" false

def marked (restored : Bool) (fate : Objects.Fate) (now : Instant) : Outcome ρ σ :=
  match fate.call (.database .connection) (markVerified archive now) w.platform with
  | (.ok _, p) => ⟨.settled (.ok (summary archive restored)), p, w.store, []⟩
  | (.error _, p) => ⟨unverified, p, w.store, []⟩

/-- The step of a call, where the action is what it waits for. -/
def advance (call : RestoreCall ρ σ) : RestoreAction ρ σ → Option (Outcome ρ σ)
  | .call _ _ => none
  | .inspect answers =>
    match call.phase with
    | .inspecting => some (w.goes (w.inspected call.archive answers))
    | _ => none
  | .put fate etag =>
    match call.phase with
    | .uploading (a :: rest) uploads => some (w.putObject call.archive a rest uploads fate etag)
    | _ => none
  | .compare fate =>
    match call.phase with
    | .comparing a rest uploads => some (w.goes (w.compareObject call.archive a rest uploads fate))
    | _ => none
  | .discard fate =>
    match call.phase with
    | .discarding a etag uploads =>
      some (w.removal a.objectKey etag fate
        (.abandon uploads (corruptState "The restored private object metadata is invalid")))
    | _ => none
  | .remove objectKey fate =>
    match call.phase with
    | .removing objects error =>
      (objects.find? fun o => o.1 == objectKey).map fun o =>
        let left := objects.filter fun o => o.1 != objectKey
        w.removal objectKey o.2 fate (if left.isEmpty then .settled (.error error) else .removing left error)
    | _ => none
  | .commit fate restoredAt =>
    match call.phase with
    | .committing uploads => some (w.commitRestore call.archive call.requestedBy uploads fate restoredAt)
    | _ => none
  | .check answers =>
    match call.phase with
    | .checking objectKey etag entries error =>
      some (w.goes
        (if answers && (w.platform.db.artifacts.find? fun _ a => a.objectKey == objectKey).isNone then
          .deleting objectKey etag entries error
        else .cleanup entries error))
    | _ => none
  | .delete fate =>
    match call.phase with
    | .deleting objectKey etag entries error => some (w.removal objectKey etag fate (.cleanup entries error))
    | _ => none
  | .readLedger answers =>
    match call.phase with
    | .verifying restored => some (w.goes (w.ledgerRead call.archive restored answers))
    | _ => none
  | .rebuild reply =>
    match call.phase with
    | .rebuilding restored => some (w.goes (rebuilt call.archive restored reply))
    | _ => none
  | .mark fate now =>
    match call.phase with
    | .marking restored => some (w.marked call.archive restored fate now)
    | _ => none

/-- An outcome becomes the state. -/
def follow (n : Nat) (call : RestoreCall ρ σ) (o : Outcome ρ σ) : Restoring ρ σ where
  platform := o.platform
  store := o.store
  calls := fun m => if m = n then some { call with phase := o.phase } else w.calls m
  acts := w.acts ++ o.acts.map fun act => (n, act)

def step (action : Nat × RestoreAction ρ σ) (w : Restoring ρ σ) : Restoring ρ σ :=
  match w.calls action.1 with
  | none =>
    match action.2 with
    | .call raw requestedBy =>
      { w with calls := fun m => if m = action.1 then some (begin raw requestedBy) else w.calls m }
    | _ => w
  | some call =>
    match w.advance call action.2 with
    | none => w
    | some o => w.follow action.1 call o

end step

end Restoring

end ReproForge
