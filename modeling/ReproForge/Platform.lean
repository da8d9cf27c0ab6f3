import ReproForge.Database

/-!
# The rest of the schema

Principals, GitHub installations and repositories, webhook deliveries, run
evidence and restore sessions, beside the tables of the durable services.
-/
namespace ReproForge

open KeyedTable Transactions Transactions.Tx

/-! ## Rows -/

structure PrincipalRow where
  provider : String
  issuer : String
  externalSubject : String
  createdAt : Instant
  updatedAt : Instant
  lastSeenAt : Instant
  retentionUntil : Instant
  deriving DecidableEq, Repr

structure InstallationStateRow where
  tenantId : String
  principalId : String
  createdAt : Instant
  expiresAt : Instant
  consumedAt : Option Instant
  deriving DecidableEq, Repr

/-- A primary key `(tenant_id, installation_id)`. -/
structure InstallationKey where
  tenantId : String
  installationId : Nat
  deriving DecidableEq, Repr

inductive RepositorySelection where
  | all | selected
  deriving DecidableEq, Repr

inductive GitHubAuthorizationStatus where
  | active | removed | suspended
  deriving DecidableEq, Repr

structure InstallationRow where
  linkedByPrincipalId : String
  accountId : Nat
  accountLogin : String
  repositorySelection : RepositorySelection
  status : GitHubAuthorizationStatus
  providerUpdatedAt : Option Instant
  createdAt : Instant
  updatedAt : Instant
  suspendedAt : Option Instant
  removedAt : Option Instant
  deriving DecidableEq, Repr

inductive RepositoryStatus where
  | active | removed
  deriving DecidableEq, Repr

structure RepositoryRow where
  installationId : Nat
  providerRepositoryId : Nat
  fullName : String
  defaultBranch : String
  isPrivate : Bool
  status : RepositoryStatus
  providerUpdatedAt : Option Instant
  createdAt : Instant
  updatedAt : Instant
  removedAt : Option Instant
  deriving DecidableEq, Repr

inductive WebhookEvent where
  | installation | installationRepositories
  deriving DecidableEq, Repr

inductive DeliveryOutcome where
  | processing | accepted | ignored
  deriving DecidableEq, Repr

structure DeliveryRow where
  event : WebhookEvent
  payloadHash : String
  tenantId : Option String
  installationId : Option Nat
  action : Option String
  outcome : DeliveryOutcome
  receivedAt : Instant
  processedAt : Option Instant
  expiresAt : Instant
  deriving DecidableEq, Repr

/-- A primary key `(tenant_id, job_id, attempt, sequence)`. -/
structure EvidenceKey where
  tenantId : String
  jobId : String
  attempt : Nat
  sequence : Nat
  deriving DecidableEq, Repr

inductive EvidenceKind where
  | positiveControl | negativeControl | environment | observation | output
  deriving DecidableEq, Repr

/-- The two documents as canonical text of JSON objects. -/
structure EvidenceRow where
  caseId : String
  kind : EvidenceKind
  commandHash : Option String
  exitCode : Option Int
  passed : Option Bool
  durationMs : Option Nat
  environment : String
  evidence : String
  leaseOwner : Option String
  createdAt : Instant
  retentionUntil : Instant
  deriving DecidableEq, Repr

inductive RestoreState where
  | running | restored | verified
  deriving DecidableEq, Repr

structure RestoreSessionRow where
  backupSha256 : String
  requestedBy : String
  state : RestoreState
  caseCount : Nat
  evidenceCount : Nat
  artifactCount : Nat
  byteCount : Nat
  startedAt : Instant
  completedAt : Option Instant
  verifiedAt : Option Instant
  deriving DecidableEq, Repr

/-! ## CHECK constraints -/

/-- `^[A-Za-z0-9](?:[A-Za-z0-9-]{0,37}[A-Za-z0-9])?$` -/
def isAccountLogin (s : String) : Bool :=
  match s.toList with
  | [] => false
  | c :: rest =>
    c.isAlphanum && rest.length ≤ 38 && rest.all (fun c => c.isAlphanum || c == '-') &&
      rest.getLast?.all Char.isAlphanum

def InstallationRow.checks (key : InstallationKey) (i : InstallationRow) : Bool :=
  0 < key.installationId && 0 < i.accountId && isAccountLogin i.accountLogin &&
    (i.status != .suspended || i.suspendedAt.isSome) && (i.status != .removed || i.removedAt.isSome) &&
    i.createdAt ≤ i.updatedAt

/-- `[[:cntrl:]]` -/
def controlChar (c : Char) : Bool := c.toNat < 32 || (127 ≤ c.toNat && c.toNat ≤ 159)

def RepositoryRow.checks (key : Key) (r : RepositoryRow) : Bool :=
  opaqueId key.id && 0 < r.providerRepositoryId && 3 ≤ r.fullName.length && r.fullName.length ≤ 255 &&
    ownerAndName r.fullName && 1 ≤ r.defaultBranch.length && r.defaultBranch.length ≤ 255 &&
    !r.defaultBranch.toList.any controlChar && (r.status != .removed || r.removedAt.isSome) &&
    r.createdAt ≤ r.updatedAt

/-- `^[A-Za-z0-9-]{1,128}$` -/
def isDeliveryId (s : String) : Bool :=
  !s.isEmpty && s.length ≤ 128 && s.toList.all (fun c => c.isAlphanum || c == '-')

/-- `^[a-z_]{1,64}$` -/
def isWebhookAction (s : String) : Bool :=
  !s.isEmpty && s.length ≤ 64 && s.toList.all (fun c => c.isLower || c == '_')

def DeliveryRow.checks (id : String) (d : DeliveryRow) : Bool :=
  isDeliveryId id && hexDigest 64 d.payloadHash && d.installationId.all (0 < ·) &&
    d.action.all isWebhookAction && d.receivedAt < d.expiresAt && d.processedAt.all (d.receivedAt ≤ ·) &&
    (d.outcome == .processing || d.processedAt.isSome)

def EvidenceRow.checks (key : EvidenceKey) (e : EvidenceRow) : Bool :=
  1 ≤ key.attempt && 1 ≤ key.sequence && e.commandHash.all (hexDigest 64) && e.createdAt < e.retentionUntil &&
    e.leaseOwner.all opaqueId

def RestoreSessionRow.checks (r : RestoreSessionRow) : Bool :=
  hexDigest 64 r.backupSha256 && opaqueId r.requestedBy &&
    match r.state with
    | .running => r.completedAt.isNone && r.verifiedAt.isNone
    | .restored => r.completedAt.isSome && r.verifiedAt.isNone
    | .verified =>
      match r.completedAt, r.verifiedAt with
      | some completedAt, some verifiedAt => completedAt ≤ verifiedAt
      | _, _ => false

/-! ## The database as a whole -/

structure Platform (ρ σ : Type) where
  db : Db ρ σ
  principals : Table Key PrincipalRow
  installationStates : Table String InstallationStateRow
  installations : Table InstallationKey InstallationRow
  repositories : Table Key RepositoryRow
  webhookDeliveries : Table String DeliveryRow
  runEvidence : Table EvidenceKey EvidenceRow
  restoreSessions : Table String RestoreSessionRow

variable {ρ σ α : Type}

/-- No installation, no delivery, nothing restored. -/
def Platform.initial (db : Db ρ σ) (principals : Table Key PrincipalRow) : Platform ρ σ :=
  ⟨db, principals, .empty, .empty, .empty, .empty, .empty, .empty⟩

inductive PlatformError where
  | schema
  | snapshotMismatch
  | database : DurableError → PlatformError
  deriving DecidableEq, Repr

abbrev PlatformStatement (ρ σ α : Type) := Tx (Platform ρ σ) PlatformError α

/-- A statement on the tables of the durable services. -/
def Platform.lift (operation : Statement ρ σ α) : PlatformStatement ρ σ α := fun p =>
  match operation p.db with
  | (.ok a, db) => (.ok a, { p with db := db })
  | (.error e, db) => (.error (.database e), { p with db := db })

end ReproForge
