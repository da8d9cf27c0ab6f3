import ReproForge.Artifacts
import ReproForge.Runs

/-!
# The content-addressed artifact store

`put`, `read` and `delete` as programs over the database and the object store.
A state of a call is the point before its next database or object call, with
the local variables that the rest of the call uses; a step makes that one call.
Every interleaving of any number of calls is a run of `Vault`.
-/
namespace ReproForge

open KeyedTable Transactions Transactions.Tx

variable {ρ σ : Type} [ContentHash]

/-- What the outside decides about one step: the fate of the database or object
call, the clock, and the etag under which the provider stores a new object. -/
structure Outside where
  attempts : List Attempt
  fate : Objects.Fate
  now : Instant
  etag : String
  absent : Bool

/-- The fate of a statement outside a transaction. -/
def Outside.attempt (env : Outside) : Attempt := env.attempts.headD .runs

inductive ArtifactFailure where
  | store : ArtifactErrorCode → ArtifactFailure
  | database : DurableError → ArtifactFailure
  /-- The schema of the scope rejects the argument. -/
  | scope
  /-- An error of the object store that no handler catches. -/
  | blob
  deriving DecidableEq, Repr

/-- A `put` names only errors of the store itself; a transaction wraps nothing. -/
def ArtifactFailure.of : DurableError → ArtifactFailure
  | .artifact code => .store code
  | e => .database e

abbrev BlobMetadata := Objects.Metadata String

def metadataMatches (d : ArtifactDescriptor) (etag : Option String) (m : BlobMetadata) : Bool :=
  m.pathname == d.objectKey && m.size == d.byteCount && etag.all (· == m.etag)

/-! ## Writing -/

inductive PutState where
  | reserving (bytes : List UInt8) (d : ArtifactDescriptor)
  | finding (bytes : List UInt8) (d : ArtifactDescriptor)
  /-- An `AVAILABLE` row was found, its object is looked up. -/
  | verifying (d : ArtifactDescriptor) (etag : Option String)
  /-- A `FAILED` row of this version was found under the identity of `d`. -/
  | reclaiming (bytes : List UInt8) (d : ArtifactDescriptor) (version : Nat)
  | uploading (bytes : List UInt8) (stored : ArtifactDescriptor) (version : Nat)
  /-- The upload failed, an object of an earlier upload is looked for. -/
  | fetching (stored : ArtifactDescriptor) (version : Nat)
  | finalizing (stored : ArtifactDescriptor) (version : Nat) (m : BlobMetadata)
  /-- The handler is about to remove the object. -/
  | discarding (stored : ArtifactDescriptor) (version : Nat) (etag : Option String) (code : ArtifactErrorCode)
  /-- The handler is about to mark the row as failed. -/
  | failing (stored : ArtifactDescriptor) (version : Nat) (code : ArtifactErrorCode)
  | done (result : Except ArtifactFailure ArtifactDescriptor)

def validatePut (bytes : List UInt8) (d : ArtifactDescriptor) : Bool :=
  d.valid && d.byteCount == bytes.length && d.sha256 == ContentHash.sha256 bytes

def PutState.start (bytes : List UInt8) (d : ArtifactDescriptor) : PutState :=
  if validatePut bytes d then .reserving bytes d else .done (.error (.store .integrityMismatch))

/-- The row is owned by this call from here on. -/
def PutState.acquired (bytes : List UInt8) (key : Key) (a : ArtifactRow) : PutState :=
  match rowDescriptor key a with
  | none => .done (.error (.store .integrityMismatch))
  | some stored => .uploading bytes stored a.version

def PutState.conflict (bytes : List UInt8) (d : ArtifactDescriptor) (key : Key) (a : ArtifactRow) : PutState :=
  match a.status with
  | .available =>
    match rowDescriptor key a with
    | none => .done (.error (.store .integrityMismatch))
    | some found => .verifying found a.providerEtag
  | .failed =>
    match integer a.version with
    | none => .done (.error (.store .integrityMismatch))
    | some version => .reclaiming bytes d version
  | _ => .done (.error (.store .pending))

/-- The object was stored or found again. -/
def PutState.uploaded (stored : ArtifactDescriptor) (version : Nat) (m : BlobMetadata) : PutState :=
  if metadataMatches stored none m then .finalizing stored version m
  else .discarding stored version (some m.etag) .integrityMismatch

def providerFailureCode : ArtifactErrorCode → String
  | .integrityMismatch => "ARTIFACT_PROVIDER_MISMATCH"
  | _ => "ARTIFACT_PROVIDER_FAILURE"

def PutState.finalized (stored : ArtifactDescriptor) (version : Nat) (m : BlobMetadata) :
    Except DurableError (Option ArtifactRow) → PutState
  | .ok (some a) =>
    match rowDescriptor stored.key a with
    | some d => .done (.ok d)
    | none => .discarding stored version (some m.etag) .integrityMismatch
  | .ok none => .discarding stored version (some m.etag) .pending
  | .error _ => .discarding stored version (some m.etag) .providerUnavailable

/-- The size and the hash of a body that the provider returned. -/
def contentMatches (d : ArtifactDescriptor) (bytes : List UInt8) : Bool :=
  bytes.length == d.byteCount && ContentHash.sha256 bytes == d.sha256

def PutState.step (env : Outside) (db : Db ρ σ) (blobs : Objects.Store String) :
    PutState → PutState × Db ρ σ × Objects.Store String
  | .reserving bytes d =>
    match runSerializableTransaction 3 env.attempts (reserveArtifact d) db with
    | (.ok (some (key, a)), db') => (.acquired bytes key a, db', blobs)
    | (.ok none, db') => (.finding bytes d, db', blobs)
    | (.error e, db') => (.done (.error (.of e)), db', blobs)
  | .finding bytes d =>
    match env.attempt.transaction (findByIdentity d) db with
    | (.ok (some (key, a)), db') => (.conflict bytes d key a, db', blobs)
    | (.ok none, db') => (.done (.error (.store .providerUnavailable)), db', blobs)
    | (.error e, db') => (.done (.error (.database e)), db', blobs)
  | .verifying d etag =>
    match env.fate.call ArtifactFailure.blob (Objects.head d.objectKey) blobs with
    | (.ok (some m), blobs') =>
      (.done (if metadataMatches d etag m then .ok d else .error (.store .integrityMismatch)), db, blobs')
    | (.ok none, blobs') => (.done (.error (.store .integrityMismatch)), db, blobs')
    | (.error e, blobs') => (.done (.error e), db, blobs')
  | .reclaiming bytes d version =>
    match env.attempt.transaction (reclaimArtifact d version env.now) db with
    | (.ok (some (key, a)), db') => (.acquired bytes key a, db', blobs)
    | (.ok none, db') => (.done (.error (.store .pending)), db', blobs)
    | (.error e, db') => (.done (.error (.database e)), db', blobs)
  | .uploading bytes stored version =>
    match env.fate.call ArtifactFailure.blob
        (Objects.put ArtifactFailure.blob stored.objectKey bytes env.etag) blobs with
    | (.ok m, blobs') => (.uploaded stored version m, db, blobs')
    | (.error _, blobs') => (.fetching stored version, db, blobs')
  | .fetching stored version =>
    match env.fate.call ArtifactFailure.blob
        (Objects.get ArtifactFailure.blob stored.objectKey stored.byteCount) blobs with
    | (.ok (some (bytes, m)), blobs') =>
      (if contentMatches stored bytes then .uploaded stored version m
        else .discarding stored version none .providerUnavailable, db, blobs')
    | (.ok none, blobs') => (.discarding stored version none .providerUnavailable, db, blobs')
    | (.error _, blobs') => (.discarding stored version none .providerUnavailable, db, blobs')
  | .finalizing stored version m =>
    match integer version with
    | none => (.discarding stored version (some m.etag) .integrityMismatch, db, blobs)
    | some version =>
      let reply := env.attempt.transaction (finalizeArtifact stored.key version m.etag env.now) db
      (.finalized stored version m reply.1, reply.2, blobs)
  | .discarding stored version etag code =>
    (.failing stored version code, db,
      (env.fate.call ArtifactFailure.blob (Objects.delete env.absent stored.objectKey etag) blobs).2)
  | .failing stored version code =>
    match integer version with
    | none => (.done (.error (.store .integrityMismatch)), db, blobs)
    | some version =>
      match env.attempt.transaction
        (failArtifact stored.key version (providerFailureCode code) env.now) db with
      | (.ok _, db') => (.done (.error (.store code)), db', blobs)
      | (.error e, db') => (.done (.error (.database e)), db', blobs)
  | .done result => (.done result, db, blobs)

/-! ## Reading -/

inductive ReadState where
  | finding (scope : TenantScope) (artifactId : String)
  | fetching (d : ArtifactDescriptor) (etag : Option String)
  | done (result : Except ArtifactFailure (Option (List UInt8 × ArtifactDescriptor)))

def ReadState.start (scope : TenantScope) (artifactId : String) : ReadState :=
  if scope.valid then .finding scope artifactId else .done (.error .scope)

def ReadState.step (env : Outside) (db : Db ρ σ) (blobs : Objects.Store String) :
    ReadState → ReadState × Db ρ σ × Objects.Store String
  | .finding scope artifactId =>
    match env.attempt.transaction (findAuthorized scope artifactId .available) db with
    | (.ok none, db') => (.done (.ok none), db', blobs)
    | (.ok (some a), db') =>
      match rowDescriptor ⟨scope.tenantId, artifactId⟩ a with
      | none => (.done (.error (.store .integrityMismatch)), db', blobs)
      | some d => (.fetching d a.providerEtag, db', blobs)
    | (.error e, db') => (.done (.error (.database e)), db', blobs)
  | .fetching d etag =>
    match env.fate.call ArtifactFailure.blob
        (Objects.get ArtifactFailure.blob d.objectKey d.byteCount) blobs with
    | (.ok (some (bytes, m)), blobs') =>
      (.done (if metadataMatches d etag m && contentMatches d bytes then .ok (some (bytes, d))
        else .error (.store .integrityMismatch)), db, blobs')
    | (.ok none, blobs') => (.done (.error (.store .integrityMismatch)), db, blobs')
    | (.error e, blobs') => (.done (.error e), db, blobs')
  | .done result => (.done result, db, blobs)

/-! ## Deleting -/

inductive DeleteState where
  | finding (scope : TenantScope) (artifactId : String)
  /-- The row was read as `AVAILABLE` at this version and with this etag. -/
  | claiming (d : ArtifactDescriptor) (version : Nat) (etag : String)
  | removing (d : ArtifactDescriptor) (version : Nat) (etag : String)
  | checking (d : ArtifactDescriptor) (version : Nat)
  | completing (d : ArtifactDescriptor) (version : Nat)
  /-- The handler is about to make the row available again. -/
  | restoring (d : ArtifactDescriptor) (version : Nat) (code : ArtifactErrorCode)
  | done (result : Except ArtifactFailure Bool)

def DeleteState.start (scope : TenantScope) (artifactId : String) : DeleteState :=
  if scope.valid then .finding scope artifactId else .done (.error .scope)

/-- A row without a usable etag is not deleted. -/
def DeleteState.found (key : Key) (a : ArtifactRow) : DeleteState :=
  match a.providerEtag with
  | none => .done (.ok false)
  | some etag =>
    if etag.isEmpty then .done (.ok false)
    else
      match rowDescriptor key a, integer a.version with
      | some d, some version => .claiming d version etag
      | _, _ => .done (.error (.store .integrityMismatch))

def DeleteState.step (env : Outside) (db : Db ρ σ) (blobs : Objects.Store String) :
    DeleteState → DeleteState × Db ρ σ × Objects.Store String
  | .finding scope artifactId =>
    match env.attempt.transaction (findAuthorized scope artifactId .available) db with
    | (.ok none, db') => (.done (.ok false), db', blobs)
    | (.ok (some a), db') => (.found ⟨scope.tenantId, artifactId⟩ a, db', blobs)
    | (.error e, db') => (.done (.error (.database e)), db', blobs)
  | .claiming d version etag =>
    match env.attempt.transaction (claimArtifactDeletion d.key version env.now) db with
    | (.ok none, db') => (.done (.ok false), db', blobs)
    | (.ok (some a), db') => (.removing d a.version etag, db', blobs)
    | (.error e, db') => (.done (.error (.database e)), db', blobs)
  | .removing d version etag =>
    match env.fate.call ArtifactFailure.blob (Objects.delete env.absent d.objectKey (some etag)) blobs with
    | (.ok true, blobs') => (.completing d version, db, blobs')
    | (.ok false, blobs') => (.checking d version, db, blobs')
    | (.error _, blobs') => (.restoring d version .providerUnavailable, db, blobs')
  | .checking d version =>
    match env.fate.call ArtifactFailure.blob (Objects.head d.objectKey) blobs with
    | (.ok none, blobs') => (.completing d version, db, blobs')
    | (.ok (some _), blobs') => (.restoring d version .providerUnavailable, db, blobs')
    | (.error _, blobs') => (.restoring d version .providerUnavailable, db, blobs')
  | .completing d version =>
    match integer version with
    | none => (.restoring d version .integrityMismatch, db, blobs)
    | some version =>
      match env.attempt.transaction (completeArtifactDeletion d.key version env.now) db with
      | (.ok (some _), db') => (.done (.ok true), db', blobs)
      | (.ok none, db') => (.restoring d version .providerUnavailable, db', blobs)
      | (.error _, db') => (.restoring d version .providerUnavailable, db', blobs)
  | .restoring d version code =>
    match integer version with
    | none => (.done (.error (.store .integrityMismatch)), db, blobs)
    | some version =>
      match env.attempt.transaction (restoreArtifact d.key version env.now) db with
      | (.ok _, db') => (.done (.error (.store code)), db', blobs)
      | (.error e, db') => (.done (.error (.database e)), db', blobs)
  | .done result => (.done result, db, blobs)

/-! ## Any number of calls -/

inductive StoreCall where
  | idle
  | put : PutState → StoreCall
  | read : ReadState → StoreCall
  | delete : DeleteState → StoreCall

inductive StoreRequest where
  | put (bytes : List UInt8) (d : ArtifactDescriptor)
  | read (scope : TenantScope) (artifactId : String)
  | delete (scope : TenantScope) (artifactId : String)

def StoreRequest.start : StoreRequest → StoreCall
  | .put bytes d => .put (.start bytes d)
  | .read scope artifactId => .read (.start scope artifactId)
  | .delete scope artifactId => .delete (.start scope artifactId)

def StoreCall.step (env : Outside) (db : Db ρ σ) (blobs : Objects.Store String) :
    StoreCall → StoreCall × Db ρ σ × Objects.Store String
  | .idle => (.idle, db, blobs)
  | .put s => let r := s.step env db blobs; (.put r.1, r.2)
  | .read s => let r := s.step env db blobs; (.read r.1, r.2)
  | .delete s => let r := s.step env db blobs; (.delete r.1, r.2)

structure Vault (ρ σ : Type) where
  db : Db ρ σ
  blobs : Objects.Store String
  calls : Nat → StoreCall

inductive VaultAction (ρ σ : Type) where
  /-- A call starts. One that was under way in its place is abandoned where it stands. -/
  | start : Nat → StoreRequest → VaultAction ρ σ
  | advance : Nat → Outside → VaultAction ρ σ
  /-- The rest of the system changes any other table. -/
  | others : Db ρ σ → VaultAction ρ σ

namespace Vault

def start (n : Nat) (request : StoreRequest) (v : Vault ρ σ) : Vault ρ σ :=
  { v with calls := Function.update v.calls n request.start }

def advance (n : Nat) (env : Outside) (v : Vault ρ σ) : Vault ρ σ :=
  let r := (v.calls n).step env v.db v.blobs
  ⟨r.2.1, r.2.2, Function.update v.calls n r.1⟩

/-- Tenants, artifacts and deletion requests change by their own statements only. -/
def others (db : Db ρ σ) (v : Vault ρ σ) : Vault ρ σ :=
  { v with
    db := { db with
      tenants := v.db.tenants
      artifacts := v.db.artifacts
      deletionRequests := v.db.deletionRequests } }

def step : VaultAction ρ σ → Vault ρ σ → Vault ρ σ
  | .start n request, v => v.start n request
  | .advance n env, v => v.advance n env
  | .others db, v => v.others db

end Vault

end ReproForge
