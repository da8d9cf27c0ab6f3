import ReproForge.AvailableArtifacts

/-!
# Account deletion

Requests to delete a tenant's data, and their execution: a request suspends the
tenant, an executor claims it and lists the artifacts, deletes their objects one
by one, and purges the rows in one last transaction.
-/
namespace ReproForge

open KeyedTable Transactions Transactions.Tx

variable {ρ σ : Type}

/-! ## Timestamps and identifiers -/

def pad (width n : Nat) : String :=
  let digits := (toString n).toList
  String.ofList (List.replicate (width - digits.length) '0' ++ digits)

/-- The year, month and day of a day counted from the epoch. -/
def civil (day : Int) : Int × Nat × Nat :=
  let z := day + 719468
  let era := z / 146097
  let dayOfEra := (z % 146097).toNat
  let yearOfEra := (dayOfEra - dayOfEra / 1460 + dayOfEra / 36524 - dayOfEra / 146096) / 365
  let dayOfYear := dayOfEra - (365 * yearOfEra + yearOfEra / 4 - yearOfEra / 100)
  let shifted := (5 * dayOfYear + 2) / 153
  let dayOfMonth := dayOfYear - (153 * shifted + 2) / 5 + 1
  let month := if shifted < 10 then shifted + 3 else shifted - 9
  (yearOfEra + era * 400 + (if month ≤ 2 then 1 else 0), month, dayOfMonth)

/-- `toISOString()` of an instant in the years 0000 to 9999. -/
def isoString (t : Instant) : String :=
  let date := civil (t / 86400000)
  let time := (t % 86400000).toNat
  pad 4 date.1.toNat ++ "-" ++ pad 2 date.2.1 ++ "-" ++ pad 2 date.2.2 ++ "T" ++ pad 2 (time / 3600000) ++ ":" ++
    pad 2 (time / 60000 % 60) ++ ":" ++ pad 2 (time / 1000 % 60) ++ "." ++ pad 3 (time % 1000) ++ "Z"

/-- `createHash("sha256").update(parts.join(":"))`, cut to 40 digits. -/
def lifecycleId [Sha256] (name : String) (parts : List String) : String :=
  name ++ "_" ++ hashPrefix 40 (":".intercalate parts)

/-- A year later is still a date that the database accepts. -/
def retainable (at' : Instant) : Bool := at' < 253370764800000

/-! ## Rows of `deletion_requests` -/

namespace DeletionRow

/-- The predicate of the unique index `deletion_requests_one_active_idx`. -/
def active (r : DeletionRow) : Bool :=
  r.state == .requested || r.state == .scheduled || r.state == .running

def claimShape (r : DeletionRow) : Bool :=
  if r.state = .running then r.claimOwner.isSome && r.claimExpiresAt.any (r.updatedAt < ·)
  else r.claimOwner.isNone && r.claimExpiresAt.isNone

def checks (key : Key) (r : DeletionRow) : Bool :=
  opaqueId key.id && opaqueId r.requestedBy && 1 ≤ r.version && r.createdAt ≤ r.updatedAt &&
    r.scheduledAt.all (r.createdAt ≤ ·) && r.completedAt.all (r.createdAt ≤ ·) &&
    (if r.state = .completed then r.completedAt.isSome && r.auditTombstoneId.isSome
      else r.completedAt.isNone) &&
    (r.state == .failed) == r.failureCode.isSome && r.claimOwner.all opaqueId && r.claimShape

/-- Of all requests that an executor may take: the time by which they are ordered. -/
def dueAt (r : DeletionRow) : Instant := r.scheduledAt.getD r.createdAt

def claimed (ownerId : String) (claimExpiresAt at' : Instant) (r : DeletionRow) : DeletionRow :=
  { r with
    state := .running
    claimOwner := some ownerId
    claimExpiresAt := some claimExpiresAt
    updatedAt := at'
    version := r.version + 1 }

def failed (failureCode : String) (at' : Instant) (r : DeletionRow) : DeletionRow :=
  { r with
    state := .failed
    failureCode := some failureCode
    claimOwner := none
    claimExpiresAt := none
    updatedAt := at'
    version := r.version + 1 }

def completed (auditTombstoneId : String) (at' : Instant) (r : DeletionRow) : DeletionRow :=
  { r with
    state := .completed
    completedAt := some at'
    auditTombstoneId := some auditTombstoneId
    claimOwner := none
    claimExpiresAt := none
    updatedAt := at'
    version := r.version + 1 }

end DeletionRow

/-- `reproforge_enforce_deletion_transition` -/
def deletionTransition (old new : DeletionState) : Bool :=
  new == old ||
    match old, new with
    | .requested, .scheduled | .requested, .running | .requested, .failed => true
    | .scheduled, .running | .scheduled, .failed => true
    | .running, .completed | .running, .failed => true
    | _, _ => false

def deletionUpdateAllowed (key : Key) (old new : DeletionRow) : Bool :=
  successorVersion old.version new.version old.updatedAt new.updatedAt &&
    deletionTransition old.state new.state && new.checks key

def updateDeletion (key : Key) (condition : DeletionRow → Bool) (assign : DeletionRow → DeletionRow) :
    Statement ρ σ (Option DeletionRow) :=
  updateRow Db.deletionRequests (fun t db => { db with deletionRequests := t }) deletionUpdateAllowed key
    condition assign

def activeRequest (db : Db ρ σ) (tenantId : String) : Bool :=
  (db.deletionRequests.find? (fun key r => key.tenantId == tenantId && r.active)).isSome

/-- `ON CONFLICT DO NOTHING RETURNING id`, over the primary key and the index of active requests. -/
def insertDeletion (key : Key) (row : DeletionRow) : Statement ρ σ Bool := fun db =>
  if !row.checks key then (.error .constraint, db)
  else if (db.deletionRequests.get key).isSome || (row.active && activeRequest db key.tenantId) then
    (.ok false, db)
  else if (db.tenants.get key.tenantId).isSome then
    (.ok true, { db with deletionRequests := db.deletionRequests.insert key row })
  else (.error .constraint, db)

/-! ## Tenants -/

def tenantStatus (db : Db ρ σ) (id : String) : Option TenantStatus := (db.tenants.get id).map TenantRow.status

def updateTenant (id : String) (condition : TenantRow → Bool) (assign : TenantRow → TenantRow) :
    Statement ρ σ (Option TenantRow) :=
  updateRow Db.tenants (fun t db => { db with tenants := t }) (fun _ _ new => new.checks) id condition assign

def TenantRow.moved (status : TenantStatus) (at' : Instant) (t : TenantRow) : TenantRow :=
  { t with status := status, updatedAt := at' }

def TenantRow.purged (at' : Instant) (t : TenantRow) : TenantRow :=
  { t with status := .deleted, deletedAt := some at', retentionUntil := none, updatedAt := at' }

/-! ## Requesting and scheduling -/

variable [Sha256]

inductive DeletionReason where
  | retention | userRequest
  deriving DecidableEq, Repr

def DeletionReason.text : DeletionReason → String
  | .retention => "retention"
  | .userRequest => "user-request"

/-- An audit event whose `retention_until` is a year after it occurred. -/
def insertRetainedAudit (key : Key) (row : AuditRow) : Statement ρ σ Unit := fun db =>
  if (db.auditEvents.get key).isNone && (db.tenants.get key.tenantId).isSome && opaqueId key.id then
    (.ok (), { db with auditEvents := db.auditEvents.insert key row })
  else (.error .constraint, db)

/-- `ON CONFLICT (tenant_id, id) DO NOTHING` -/
def insertRetainedAuditOrIgnore (key : Key) (row : AuditRow) : Statement ρ σ Unit := fun db =>
  if (db.auditEvents.get key).isSome then (.ok (), db) else insertRetainedAudit key row db

def appendRequestAudit (actorId : String) (at' : Instant) (reason : DeletionReason)
    (requestId tenantId : String) : Statement ρ σ Unit :=
  insertRetainedAuditOrIgnore ⟨tenantId, lifecycleId "audit_delete_request" [tenantId, requestId]⟩
    { actorId := actorId
      action := "account.deletion-requested"
      targetType := .account
      targetId := tenantId
      outcome := .success
      metadata := [("reason", .text reason.text)]
      occurredAt := at' }

/-- Callers and their unfinished jobs, without repetition, by job and caller. -/
def unfinishedJobs (db : Db ρ σ) (tenantId : String) : List (String × String) :=
  (db.idempotencyKeys.rows.filterMap (fun row =>
    if row.1.tenantId == tenantId &&
        (db.jobs.get ⟨tenantId, row.2.jobId⟩).any (fun j => j.state == .queued || j.state == .running) then
      some (row.2.jobId, row.1.callerId)
    else none)).eraseDups.mergeSort
      (fun a b => a.1 < b.1 || (a.1 == b.1 && a.2 ≤ b.2))

variable [ResultDocument ρ] [RequestDocument σ]

def suspendAndCancelTenant (actorId : String) (at' : Instant) (tenantId : String) : Statement ρ σ Unit := do
  let db ← read
  let _ ← forEach (fun job => requestCancellation ⟨job.2, actorId, tenantId⟩ job.1 at') (unfinishedJobs db tenantId)
  let _ ← updateTenant tenantId (fun t => t.status == .active) (TenantRow.moved .suspended at')
  pure ()

/-- A request that is scheduled, with its audit entry, and the suspension of its tenant. -/
def scheduledRequest (requestedBy : String) (scheduledAt at' : Instant) : DeletionRow where
  requestedBy := requestedBy
  state := .scheduled
  scheduledAt := some scheduledAt
  completedAt := none
  auditTombstoneId := none
  failureCode := none
  claimOwner := none
  claimExpiresAt := none
  version := 1
  createdAt := at'
  updatedAt := at'

/-- The part that a user's request and the retention schedule share. -/
def scheduleDeletion (tenantId requestId requestedBy : String) (scheduledAt at' : Instant)
    (reason : DeletionReason) : Statement ρ σ Bool := do
  require (retainable at') .constraint
  let inserted ← insertDeletion ⟨tenantId, requestId⟩ (scheduledRequest requestedBy scheduledAt at')
  if inserted then
    appendRequestAudit requestedBy at' reason requestId tenantId
    suspendAndCancelTenant requestedBy at' tenantId
    pure true
  else pure false

structure DeletionInput where
  at' : Instant
  requestId : String
  scheduledAt : Instant
  scope : TenantScope
  deriving DecidableEq, Repr

def requestDeletion (input : DeletionInput) : Statement ρ σ Bool := do
  require input.scope.valid .schema
  require (datetime input.at' && datetime input.scheduledAt && input.at' ≤ input.scheduledAt &&
    opaqueId input.requestId) (.retention .invalidRequest)
  let db ← read
  let id := input.scope.tenantId
  if (tenantStatus db id).all (· == .deleted) then pure false
  else if ((db.deletionRequests.get ⟨id, input.requestId⟩).any
      (fun r => r.requestedBy == input.scope.principalId)) then pure false
  else scheduleDeletion id input.requestId input.scope.principalId input.scheduledAt input.at' .userRequest

structure ScheduleInput where
  at' : Instant
  limit : Int
  deriving DecidableEq, Repr

/-- Active tenants past their retention, without those that another transaction has locked. -/
def dueTenants (db : Db ρ σ) (at' : Instant) (limit : Nat) (locked : List String) :
    List (String × TenantRow) :=
  ((db.tenants.select (fun id t => t.status == .active && t.retentionUntil.any (· ≤ at') &&
    !activeRequest db id && !locked.contains id)).mergeSort
      (fun a b => a.2.retentionUntil.getD 0 < b.2.retentionUntil.getD 0 ||
        (a.2.retentionUntil == b.2.retentionUntil && a.1 ≤ b.1))).take limit

def scheduleTenant (at' : Instant) (tenant : String × TenantRow) : Statement ρ σ (Option String) := do
  let retentionUntil ← demand tenant.2.retentionUntil .connection
  let requestId := lifecycleId "retention" [tenant.1, isoString at', isoString retentionUntil]
  let inserted ← scheduleDeletion tenant.1 requestId "system_retention" at' at' .retention
  pure (if inserted then some requestId else none)

def scheduleDue (input : ScheduleInput) (locked : List String) : Statement ρ σ (List String) := do
  require (datetime input.at' && 1 ≤ input.limit && input.limit ≤ 1000) (.retention .invalidSchedule)
  let db ← read
  let scheduled ← forEach (scheduleTenant input.at') (dueTenants db input.at' input.limit.toNat locked)
  pure (scheduled.filterMap id)

/-! ## Executing -/

/-- What an executor knows of an artifact. -/
structure ArtifactReference where
  objectKey : String
  providerEtag : Option String
  status : ArtifactStatus
  deriving DecidableEq, Repr

structure DeletionClaim where
  artifacts : List ArtifactReference
  claimExpiresAt : Instant
  claimOwner : String
  requestedBy : String
  requestId : String
  tenantId : String
  version : Nat
  deriving DecidableEq, Repr

def DeletionClaim.key (claim : DeletionClaim) : Key := ⟨claim.tenantId, claim.requestId⟩

def executable (db : Db ρ σ) (at' : Instant) (key : Key) (r : DeletionRow) : Bool :=
  (((r.state == .requested || r.state == .scheduled) && r.dueAt ≤ at' &&
      (tenantStatus db key.tenantId == some .active || tenantStatus db key.tenantId == some .suspended)) ||
    (r.state == .running && r.claimExpiresAt.any (· ≤ at') && tenantStatus db key.tenantId == some .deleting)) &&
    (db.jobs.find? (fun k j => k.tenantId == key.tenantId && j.state == .running)).isNone

/-- `ORDER BY coalesce(scheduled_at, created_at), created_at, tenant_id, id` -/
def deletionBefore (a b : Key × DeletionRow) : Bool :=
  a.2.dueAt < b.2.dueAt || (a.2.dueAt == b.2.dueAt &&
    (a.2.createdAt < b.2.createdAt || (a.2.createdAt == b.2.createdAt &&
      (a.1.tenantId < b.1.tenantId || (a.1.tenantId == b.1.tenantId && a.1.id ≤ b.1.id)))))

def nextDeletion (db : Db ρ σ) (at' : Instant) (locked : List Key) : Option (Key × DeletionRow) :=
  ((db.deletionRequests.select (fun key r => executable db at' key r && !locked.contains key)).mergeSort
    deletionBefore).head?

/-- `SELECT object_key, provider_etag, status … ORDER BY object_key` -/
def tenantArtifacts (db : Db ρ σ) (tenantId : String) : List ArtifactReference :=
  ((db.artifacts.select (fun key _ => key.tenantId == tenantId)).map
    (fun row => ⟨row.2.objectKey, row.2.providerEtag, row.2.status⟩)).mergeSort
      (fun a b => a.objectKey ≤ b.objectKey)

def claimNext (at' : Instant) (ownerId : String) (locked : List Key) :
    Statement ρ σ (Option DeletionClaim) := do
  let db ← read
  match nextDeletion db at' locked with
  | none => pure none
  | some row =>
    let claimExpiresAt := at' + 300000
    require (datetime claimExpiresAt) .constraint
    let claimed ← updateDeletion row.1
      (fun r => r.version == row.2.version && (r.state == .requested || r.state == .scheduled ||
        (r.state == .running && r.claimExpiresAt.any (· ≤ at'))))
      (DeletionRow.claimed ownerId claimExpiresAt at')
    let version ← demand (integer ((claimed.map DeletionRow.version).getD 0)) (.retention .corruptState)
    let selected ← demand (integer row.2.version) (.retention .corruptState)
    if version = selected + 1 then
      let _ ← updateTenant row.1.tenantId (fun t => t.status == .active || t.status == .suspended)
        (TenantRow.moved .deleting at')
      let current ← read
      pure (some ⟨tenantArtifacts current row.1.tenantId, claimExpiresAt, ownerId, row.2.requestedBy, row.1.id,
        row.1.tenantId, version⟩)
    else pure none

def DeletionRow.heldBy (r : DeletionRow) (claim : DeletionClaim) : Bool :=
  r.version == claim.version && r.state == .running && r.claimOwner == some claim.claimOwner &&
    r.claimExpiresAt == some claim.claimExpiresAt

inductive RetentionFailure where
  | artifactNotSettled | providerFailure
  deriving DecidableEq, Repr

def RetentionFailure.code : RetentionFailure → String
  | .artifactNotSettled => "RETENTION_ARTIFACT_NOT_SETTLED"
  | .providerFailure => "RETENTION_PROVIDER_FAILURE"

def markFailed (claim : DeletionClaim) (at' : Instant) (failure : RetentionFailure) : Statement ρ σ Unit := do
  let failed ← updateDeletion claim.key (fun r => r.heldBy claim) (DeletionRow.failed failure.code at')
  require failed.isSome (.retention .lostClaim)
  let _ ← updateTenant claim.tenantId (fun t => t.status == .deleting) (TenantRow.moved .suspended at')
  pure ()

def ownTombstone (claim : DeletionClaim) : String :=
  lifecycleId "audit_tombstone" [claim.tenantId, claim.requestId]

/-- Every customer row of the tenant goes. -/
def purge (tenantId : String) (db : Db ρ σ) : Db ρ σ :=
  { db with
    idempotencyKeys := db.idempotencyKeys.delete (fun key _ => key.tenantId == tenantId)
    outboxEvents := db.outboxEvents.delete (fun key _ => key.tenantId == tenantId)
    quotaLedger := db.quotaLedger.delete (fun key _ => key.tenantId == tenantId)
    artifacts := db.artifacts.delete (fun key _ => key.tenantId == tenantId)
    jobs := db.jobs.delete (fun key _ => key.tenantId == tenantId)
    cases := db.cases.delete (fun key _ => key.tenantId == tenantId)
    auditEvents := db.auditEvents.delete (fun key _ => key.tenantId == tenantId) }

def complete (claim : DeletionClaim) (at' : Instant) : Statement ρ σ Unit := do
  let db ← read
  require ((db.deletionRequests.get claim.key).any (fun r => r.heldBy claim) &&
    tenantStatus db claim.tenantId == some .deleting) (.retention .lostClaim)
  modify (purge claim.tenantId)
  require (retainable at') .constraint
  insertRetainedAudit ⟨claim.tenantId, ownTombstone claim⟩
    { actorId := "system_retention"
      action := "account.deleted"
      targetType := .account
      targetId := claim.tenantId
      outcome := .success
      metadata := [("reason", .text (if claim.requestedBy = "system_retention" then DeletionReason.retention
        else .userRequest).text)]
      occurredAt := at' }
  let completed ← updateDeletion claim.key (fun r => r.heldBy claim)
    (DeletionRow.completed (ownTombstone claim) at')
  require completed.isSome (.retention .lostClaim)
  modify (fun db => { db with deletionRequests := db.deletionRequests.delete (fun key _ => key = claim.key) })
  let _ ← updateTenant claim.tenantId (fun t => t.status == .deleting) (TenantRow.purged at')
  pure ()

/-! ## What a statement that succeeded did -/

/-- The tables that account deletion is about are as they were. -/
structure Untouched (db db' : Db ρ σ) : Prop where
  tenants : db'.tenants = db.tenants
  artifacts : db'.artifacts = db.artifacts
  deletionRequests : db'.deletionRequests = db.deletionRequests

omit [Sha256] [ResultDocument ρ] [RequestDocument σ] in
theorem Untouched.refl (db : Db ρ σ) : Untouched db db := ⟨rfl, rfl, rfl⟩

omit [Sha256] [ResultDocument ρ] [RequestDocument σ] in
theorem Untouched.trans {a b c : Db ρ σ} (h : Untouched a b) (h' : Untouched b c) : Untouched a c :=
  ⟨h'.tenants.trans h.tenants, h'.artifacts.trans h.artifacts, h'.deletionRequests.trans h.deletionRequests⟩

omit [Sha256] [ResultDocument ρ] [RequestDocument σ] in
theorem Untouched.status {db db' : Db ρ σ} (h : Untouched db db') (id : String) :
    tenantStatus db' id = tenantStatus db id := by
  rw [tenantStatus, tenantStatus, h.tenants]

theorem JobWrite.untouched {db db' : Db ρ σ} {key caseKey : Key} {j j' : JobRow} {c c' : CaseRow ρ σ}
    (h : JobWrite db db' key caseKey j j' c c') : Untouched db db' := by
  rw [h.result]
  exact ⟨rfl, rfl, rfl⟩

theorem requestCancellation_untouched {scope : TenantScope} {jobId : String} {at' : Instant}
    {reply : Option CancellationRequestResult} {db db' : Db ρ σ}
    (h : requestCancellation scope jobId at' db = (.ok reply, db')) : Untouched db db' := by
  rcases requestCancellation_ok h with ⟨-, rfl⟩ | ⟨_, _, -, rfl, -⟩ | ⟨_, _, -, hw⟩
  · exact .refl _
  · exact .refl _
  · cases hw with
    | requested _ hw => exact hw.untouched
    | cancelled _ hw => exact hw.untouched

omit [Sha256] [ResultDocument ρ] [RequestDocument σ] in
theorem tenantStatus_congr {db db' : Db ρ σ} {id : String} (h : db'.tenants.get id = db.tenants.get id) :
    tenantStatus db' id = tenantStatus db id := congrArg (Option.map TenantRow.status) h

/-- What an update of a tenant's row does to the statuses of the tenants. -/
inductive StatusChange (db db' : Db ρ σ) (id : String) (condition : TenantRow → Bool) (status : TenantStatus) :
    Prop where
  | skipped : db' = db → (∀ t, db.tenants.get id = some t → condition t = false) →
      StatusChange db db' id condition status
  | changed (t : TenantRow) : db.tenants.get id = some t → condition t = true →
      tenantStatus db' id = some status → (∀ id', id' ≠ id → db'.tenants.get id' = db.tenants.get id') →
      (∀ id', (db'.tenants.get id').isSome = (db.tenants.get id').isSome) →
      db' = { db with tenants := db'.tenants } → StatusChange db db' id condition status

omit [Sha256] [ResultDocument ρ] [RequestDocument σ] in
theorem updateTenant_ok {id : String} {condition : TenantRow → Bool} {assign : TenantRow → TenantRow}
    (status : TenantStatus) (hassign : ∀ t, (assign t).status = status) {db db' : Db ρ σ}
    {reply : Option TenantRow} (h : updateTenant id condition assign db = (.ok reply, db')) :
    StatusChange db db' id condition status := by
  cases ht : db.tenants.get id with
  | none =>
    simp only [updateTenant, updateRow, ht, Prod.mk.injEq] at h
    exact .skipped h.2.symm (fun t he => by rw [ht] at he; cases he)
  | some t =>
    by_cases hc : condition t = true
    · rcases updateRow_ok h with ⟨rfl, -⟩ | ⟨t', ht', -, -, -, hd⟩
      · simp only [updateTenant, updateRow, ht, hc, if_true] at h
        split at h <;> cases h
      · obtain rfl := Option.some.inj (ht.symm.trans ht')
        have hself : db'.tenants.get id = some (assign t) := by
          rw [hd]
          exact Table.get_set_self ht
        refine .changed t ht hc (by rw [tenantStatus, hself, Option.map_some, hassign]) (fun id' hid => ?_)
          (fun id' => ?_) (by rw [hd])
        · rw [hd]
          exact Table.get_set_other _ _ hid
        · rw [hd]
          exact Table.isSome_get_set _ _ _ _
    · rcases updateRow_ok h with ⟨-, hd⟩ | ⟨t', ht', hc', -⟩
      · refine .skipped hd (fun t' ht' => ?_)
        obtain rfl := Option.some.inj (ht.symm.trans ht')
        simpa using hc
      · obtain rfl := Option.some.inj (ht.symm.trans ht')
        exact absurd hc' hc

/-- One request was scheduled, and its tenant is no longer active. -/
structure Scheduled (db db' : Db ρ σ) (key : Key) (row : DeletionRow) : Prop where
  fresh : db.deletionRequests.get key = none
  inactive : activeRequest db key.tenantId = false
  state : row.state = .scheduled
  artifacts : db'.artifacts = db.artifacts
  requests : db'.deletionRequests = db.deletionRequests.insert key row
  status : ∀ id, tenantStatus db' id = tenantStatus db id ∨
    (tenantStatus db id = some .active ∧ tenantStatus db' id = some .suspended)
  others : ∀ id, id ≠ key.tenantId → tenantStatus db' id = tenantStatus db id
  tenants : ∀ id, (db'.tenants.get id).isSome = (db.tenants.get id).isSome

omit [Sha256] [ResultDocument ρ] [RequestDocument σ] in
theorem insertDeletion_ok {key : Key} {row : DeletionRow} {reply : Bool} {db db' : Db ρ σ}
    (h : insertDeletion key row db = (.ok reply, db')) :
    (reply = false ∧ db' = db) ∨ (reply = true ∧ db.deletionRequests.get key = none ∧
      (row.active = true → activeRequest db key.tenantId = false) ∧ (db.tenants.get key.tenantId).isSome ∧
      db' = { db with deletionRequests := db.deletionRequests.insert key row }) := by
  simp only [insertDeletion] at h
  split at h
  · cases h
  · split at h
    · exact .inl ⟨(Except.ok.inj (Prod.mk.inj h).1).symm, (Prod.mk.inj h).2.symm⟩
    · rename_i hnone
      split at h
      · rename_i hknown
        simp only [Prod.mk.injEq, Except.ok.injEq] at h
        simp only [Bool.or_eq_true, not_or, Bool.not_eq_true, Option.isSome_eq_false_iff,
          Option.isNone_iff_eq_none, Bool.and_eq_false_iff] at hnone
        refine .inr ⟨h.1.symm, hnone.1, fun hactive => ?_, hknown, h.2.symm⟩
        rcases hnone.2 with hf | hf
        · rw [hactive] at hf
          cases hf
        · exact hf
      · cases h

omit [Sha256] [ResultDocument ρ] [RequestDocument σ] in
theorem insertRetainedAudit_ok {key : Key} {row : AuditRow} {u : Unit} {db db' : Db ρ σ}
    (h : insertRetainedAudit key row db = (.ok u, db')) :
    db.auditEvents.get key = none ∧ db' = { db with auditEvents := db.auditEvents.insert key row } := by
  simp only [insertRetainedAudit, Bool.and_eq_true, Option.isNone_iff_eq_none] at h
  split at h
  · rename_i hfresh
    exact ⟨hfresh.1.1, (Prod.mk.inj h).2.symm⟩
  · cases h

omit [ResultDocument ρ] [RequestDocument σ] in
theorem appendRequestAudit_untouched {actorId requestId tenantId : String} {at' : Instant}
    {reason : DeletionReason} {u : Unit} {db db' : Db ρ σ}
    (h : appendRequestAudit actorId at' reason requestId tenantId db = (.ok u, db')) : Untouched db db' := by
  simp only [appendRequestAudit, insertRetainedAuditOrIgnore] at h
  split at h
  · rw [← (Prod.mk.inj h).2]
    exact .refl _
  · rw [(insertRetainedAudit_ok h).2]
    exact ⟨rfl, rfl, rfl⟩

theorem forEach_cancellations_untouched {actorId tenantId : String} {at' : Instant}
    {jobs : List (String × String)} {replies : List (Option CancellationRequestResult)} {db db' : Db ρ σ}
    (h : forEach (fun job => requestCancellation ⟨job.2, actorId, tenantId⟩ job.1 at') jobs db =
      (.ok replies, db')) : Untouched db db' := by
  induction jobs generalizing db replies with
  | nil =>
    obtain ⟨-, rfl⟩ := forEach_nil_ok.mp h
    exact .refl _
  | cons job rest ih =>
    obtain ⟨reply, t, replies', hone, hrest, -⟩ := forEach_cons_ok.mp h
    exact (requestCancellation_untouched hone).trans (ih hrest)

theorem scheduleDeletion_ok {tenantId requestId requestedBy : String} {scheduledAt at' : Instant}
    {reason : DeletionReason} {reply : Bool} {db db' : Db ρ σ}
    (h : scheduleDeletion tenantId requestId requestedBy scheduledAt at' reason db = (.ok reply, db')) :
    db' = db ∨ Scheduled db db' ⟨tenantId, requestId⟩ (scheduledRequest requestedBy scheduledAt at') := by
  simp only [scheduleDeletion, bind_ok, require_ok] at h
  obtain ⟨_, _, ⟨-, rfl⟩, inserted, t, hinsert, h⟩ := h
  rcases insertDeletion_ok hinsert with ⟨rfl, rfl⟩ | ⟨rfl, hfresh, hinactive, -, rfl⟩
  · simp only [Bool.false_eq_true, if_false, pure_ok] at h
    exact .inl h.2
  · simp only [if_true, suspendAndCancelTenant, bind_ok, read_ok, pure_ok] at h
    obtain ⟨_, t₁, haudit, _, t₂, ⟨_, _, ⟨rfl, rfl⟩, replies, t₃, hcancel, found, t₄, hsuspend, -, rfl⟩, -, rfl⟩ := h
    have hu := (appendRequestAudit_untouched haudit).trans (forEach_cancellations_untouched hcancel)
    right
    rcases updateTenant_ok .suspended (fun t => rfl) hsuspend with
      ⟨rfl, -⟩ | ⟨tenant, ht, hactive, hstatus, hother, hsome, hframe⟩
    · exact ⟨hfresh, hinactive rfl, rfl, hu.artifacts, hu.deletionRequests, fun id => .inl (hu.status id),
        fun id _ => hu.status id, fun id => by rw [hu.tenants]⟩
    · refine ⟨hfresh, hinactive rfl, rfl, (congrArg Db.artifacts hframe).trans hu.artifacts,
        (congrArg Db.deletionRequests hframe).trans hu.deletionRequests, fun id => ?_, fun id hid => (tenantStatus_congr (hother id hid)).trans (hu.status id),
        fun id => (hsome id).trans (by rw [hu.tenants])⟩
      by_cases hid : id = tenantId
      · subst hid
        right
        refine ⟨(hu.status id).symm.trans ?_, hstatus⟩
        rw [tenantStatus, ht]
        simpa using hactive
      · left
        exact (tenantStatus_congr (hother id hid)).trans (hu.status id)

theorem requestDeletion_ok {input : DeletionInput} {reply : Bool} {db db' : Db ρ σ}
    (h : requestDeletion input db = (.ok reply, db')) :
    db' = db ∨ ∃ key row, Scheduled db db' key row := by
  simp only [requestDeletion, bind_ok, require_ok, read_ok] at h
  obtain ⟨_, _, ⟨-, rfl⟩, _, _, ⟨-, rfl⟩, _, _, ⟨rfl, rfl⟩, h⟩ := h
  split at h
  · exact .inl (pure_ok.mp h).2
  · split at h
    · exact .inl (pure_ok.mp h).2
    · exact (scheduleDeletion_ok h).imp_right (fun hs => ⟨_, _, hs⟩)

/-- A schedule pass schedules one tenant after the other. -/
theorem scheduleDue_steps {R : Db ρ σ → Db ρ σ → Prop} {input : ScheduleInput} {locked ids : List String}
    {db db' : Db ρ σ}
    (hone : ∀ tenantId requestId at' inserted s s',
      scheduleDeletion tenantId requestId "system_retention" at' at' .retention s = (.ok inserted, s') →
        Relation.ReflTransGen R s s')
    (h : scheduleDue input locked db = (.ok ids, db')) : Relation.ReflTransGen R db db' := by
  simp only [scheduleDue, bind_ok, require_ok, read_ok, pure_ok] at h
  obtain ⟨_, _, ⟨-, rfl⟩, _, _, ⟨rfl, rfl⟩, scheduled, t, hloop, -, rfl⟩ := h
  refine forEach_steps ?_ hloop
  intro tenant reply s s' htenant
  simp only [scheduleTenant, bind_ok, demand_ok, pure_ok] at htenant
  obtain ⟨_, _, ⟨-, rfl⟩, inserted, _, hs, -, rfl⟩ := htenant
  exact hone _ _ _ _ _ _ hs

/-- A schedule pass is a sequence of scheduled requests. -/
theorem scheduleDue_ok {input : ScheduleInput} {locked ids : List String} {db db' : Db ρ σ}
    (h : scheduleDue input locked db = (.ok ids, db')) :
    Relation.ReflTransGen (fun s s' => ∃ key row, Scheduled s s' key row) db db' := by
  refine scheduleDue_steps ?_ h
  intro tenantId requestId at' inserted s s' hs
  rcases scheduleDeletion_ok hs with rfl | hs
  · exact .refl
  · exact .single ⟨_, _, hs⟩

/-- An executor took a request over and listed the artifacts of its tenant. -/
structure Claimed (db db' : Db ρ σ) (claim : DeletionClaim) (r r' : DeletionRow) : Prop where
  request : db.deletionRequests.get claim.key = some r
  active : r.active = true
  version : claim.version = r.version + 1
  taken : r'.version = claim.version ∧ r'.state = .running
  expiry : r'.claimExpiresAt = some claim.claimExpiresAt
  requests : db'.deletionRequests = db.deletionRequests.set claim.key r'
  artifacts : db'.artifacts = db.artifacts
  before : tenantStatus db claim.tenantId = some .active ∨ tenantStatus db claim.tenantId = some .suspended ∨
    tenantStatus db claim.tenantId = some .deleting
  status : tenantStatus db' claim.tenantId = some .deleting
  others : ∀ id, id ≠ claim.tenantId → tenantStatus db' id = tenantStatus db id
  tenants : ∀ id, (db'.tenants.get id).isSome = (db.tenants.get id).isSome
  listed : claim.artifacts = tenantArtifacts db' claim.tenantId
  rest : db' = { db with tenants := db'.tenants, deletionRequests := db'.deletionRequests }

omit [Sha256] [ResultDocument ρ] [RequestDocument σ] in
theorem nextDeletion_some {db : Db ρ σ} {at' : Instant} {locked : List Key} {row : Key × DeletionRow}
    (h : nextDeletion db at' locked = some row) :
    db.deletionRequests.get row.1 = some row.2 ∧ executable db at' row.1 row.2 = true := by
  have hmem := List.mem_mergeSort.mp (List.mem_of_mem_head? h)
  obtain ⟨hget, hc⟩ := Table.mem_select.mp hmem
  simp only [Bool.and_eq_true] at hc
  exact ⟨hget, hc.1⟩

omit [Sha256] [ResultDocument ρ] [RequestDocument σ] in
theorem executable_status {db : Db ρ σ} {at' : Instant} {key : Key} {r : DeletionRow}
    (h : executable db at' key r = true) : r.active = true ∧
      (tenantStatus db key.tenantId = some .active ∨ tenantStatus db key.tenantId = some .suspended ∨
        tenantStatus db key.tenantId = some .deleting) := by
  simp only [executable, Bool.and_eq_true, Bool.or_eq_true, beq_iff_eq] at h
  rcases h.1 with ⟨⟨hstate, -⟩, hstatus⟩ | ⟨⟨hstate, -⟩, hstatus⟩
  · refine ⟨?_, hstatus.elim .inl (fun h => .inr (.inl h))⟩
    rcases hstate with hs | hs <;> simp [DeletionRow.active, hs]
  · exact ⟨by simp [DeletionRow.active, hstate], .inr (.inr hstatus)⟩

omit [Sha256] [ResultDocument ρ] [RequestDocument σ] in
theorem claimNext_ok {at' : Instant} {ownerId : String} {locked : List Key} {reply : Option DeletionClaim}
    {db db' : Db ρ σ} (h : claimNext at' ownerId locked db = (.ok reply, db')) :
    (reply = none ∧ db' = db) ∨ ∃ claim r r', reply = some claim ∧ Claimed db db' claim r r' := by
  simp only [claimNext, bind_ok, read_ok] at h
  obtain ⟨_, _, ⟨rfl, rfl⟩, h⟩ := h
  cases hnext : nextDeletion db at' locked with
  | none =>
    simp only [hnext, pure_ok] at h
    exact .inl h
  | some row =>
    obtain ⟨hget, hexecutable⟩ := nextDeletion_some hnext
    obtain ⟨hactive, hbefore⟩ := executable_status hexecutable
    simp only [hnext, bind_ok, require_ok, demand_ok] at h
    obtain ⟨_, _, ⟨-, rfl⟩, claimed, t, hupdate, version, _, ⟨hversion, rfl⟩, selected, _, ⟨hselected, rfl⟩, h⟩ := h
    obtain ⟨rfl, -⟩ := integer_some.mp hversion
    obtain ⟨rfl, -⟩ := integer_some.mp hselected
    rcases updateRow_ok hupdate with ⟨rfl, rfl⟩ | ⟨r, hr, -, -, rfl, hd⟩
    · rw [if_neg (by simp)] at h
      exact .inl (pure_ok.mp h)
    · obtain rfl := Option.some.inj (hget.symm.trans hr)
      rw [if_pos (by rfl)] at h
      simp only [bind_ok, read_ok, pure_ok] at h
      obtain ⟨found, t₁, htenant, _, _, ⟨rfl, rfl⟩, rfl, rfl⟩ := h
      have hsame : ∀ id, tenantStatus t id = tenantStatus db id := by
        intro id
        rw [hd]
        rfl
      right
      refine ⟨_, row.2, row.2.claimed ownerId (at' + 300000) at', rfl, ?_⟩
      rcases updateTenant_ok .deleting (fun t => rfl) htenant with
        ⟨rfl, hskip⟩ | ⟨tenant, ht, -, hstatus, hother, hsome, hframe⟩
      · have hdeleting : tenantStatus db row.1.tenantId = some .deleting := by
          have hno : tenantStatus db' row.1.tenantId ≠ some .active ∧
              tenantStatus db' row.1.tenantId ≠ some .suspended := by
            cases ht : db'.tenants.get row.1.tenantId with
            | none => simp [tenantStatus, ht]
            | some tenant =>
              have hf := hskip tenant ht
              simp only [Bool.or_eq_false_iff, beq_eq_false_iff_ne] at hf
              simp [tenantStatus, ht, hf.1, hf.2]
          rw [hsame] at hno
          rcases hbefore with hb | hb | hb
          · exact absurd hb hno.1
          · exact absurd hb hno.2
          · exact hb
        exact {
          request := hget
          active := hactive
          version := rfl
          taken := ⟨rfl, rfl⟩
          expiry := rfl
          requests := by rw [hd]; rfl
          artifacts := by rw [hd]
          before := hbefore
          status := (hsame _).trans hdeleting
          others := fun id _ => hsame id
          tenants := fun id => by rw [hd]
          listed := rfl
          rest := by rw [hd] }
      · exact {
          request := hget
          active := hactive
          version := rfl
          taken := ⟨rfl, rfl⟩
          expiry := rfl
          requests := by rw [hframe, hd]; rfl
          artifacts := by rw [hframe, hd]
          before := hbefore
          status := hstatus
          others := fun id hid => (tenantStatus_congr (hother id hid)).trans (hsame id)
          tenants := fun id => (hsome id).trans (by rw [hd])
          listed := rfl
          rest := by rw [hframe, hd] }

omit [Sha256] [ResultDocument ρ] [RequestDocument σ] in
/-- The list of an executor names every artifact of the tenant. -/
theorem mem_tenantArtifacts {db : Db ρ σ} {key : Key} {a : ArtifactRow} (h : db.artifacts.get key = some a) :
    (⟨a.objectKey, a.providerEtag, a.status⟩ : ArtifactReference) ∈ tenantArtifacts db key.tenantId := by
  refine List.mem_mergeSort.mpr (List.mem_map.mpr ⟨(key, a), ?_, rfl⟩)
  exact Table.mem_select.mpr ⟨h, by simp⟩

/-- A request that its executor gave up, and its tenant. -/
structure Failed (db db' : Db ρ σ) (claim : DeletionClaim) (r r' : DeletionRow) : Prop where
  request : db.deletionRequests.get claim.key = some r
  held : r.heldBy claim = true
  given : r'.version = r.version + 1 ∧ r'.state = .failed
  requests : db'.deletionRequests = db.deletionRequests.set claim.key r'
  artifacts : db'.artifacts = db.artifacts
  status : tenantStatus db' claim.tenantId = tenantStatus db claim.tenantId ∨
    (tenantStatus db claim.tenantId = some .deleting ∧ tenantStatus db' claim.tenantId = some .suspended)
  others : ∀ id, id ≠ claim.tenantId → tenantStatus db' id = tenantStatus db id
  tenants : ∀ id, (db'.tenants.get id).isSome = (db.tenants.get id).isSome
  rest : db' = { db with tenants := db'.tenants, deletionRequests := db'.deletionRequests }

omit [Sha256] [ResultDocument ρ] [RequestDocument σ] in
theorem markFailed_ok {claim : DeletionClaim} {at' : Instant} {failure : RetentionFailure} {u : Unit}
    {db db' : Db ρ σ} (h : markFailed claim at' failure db = (.ok u, db')) :
    ∃ r r', Failed db db' claim r r' := by
  simp only [markFailed, bind_ok, require_ok, pure_ok] at h
  obtain ⟨failed, t, hupdate, _, _, ⟨hsome, rfl⟩, found, t₁, htenant, -, rfl⟩ := h
  rcases updateRow_ok hupdate with ⟨rfl, -⟩ | ⟨r, hr, hheld, -, rfl, hd⟩
  · simp at hsome
  · have hsame : ∀ id, tenantStatus t id = tenantStatus db id := by
      intro id
      rw [hd]
      rfl
    refine ⟨r, r.failed failure.code at', ?_⟩
    rcases updateTenant_ok .suspended (fun t => rfl) htenant with
      ⟨rfl, -⟩ | ⟨tenant, ht, hc, hstatus, hother, hsome, hframe⟩
    · exact {
        request := hr
        held := hheld
        given := ⟨rfl, rfl⟩
        requests := by rw [hd]
        artifacts := by rw [hd]
        status := .inl (hsame _)
        others := fun id _ => hsame id
        tenants := fun id => by rw [hd]
        rest := by rw [hd] }
    · have hdeleting : tenantStatus db claim.tenantId = some .deleting := by
        rw [← hsame, tenantStatus, ht]
        simpa using hc
      exact {
        request := hr
        held := hheld
        given := ⟨rfl, rfl⟩
        requests := by rw [hframe, hd]
        artifacts := by rw [hframe, hd]
        status := .inr ⟨hdeleting, hstatus⟩
        others := fun id hid => (tenantStatus_congr (hother id hid)).trans (hsame id)
        tenants := fun id => (hsome id).trans (by rw [hd])
        rest := by rw [hframe, hd] }

/-- The rows of a tenant and the request that named it are gone. -/
structure Purged (db db' : Db ρ σ) (claim : DeletionClaim) (r : DeletionRow) : Prop where
  request : db.deletionRequests.get claim.key = some r
  held : r.heldBy claim = true
  before : tenantStatus db claim.tenantId = some .deleting
  requests : ∀ key, db'.deletionRequests.get key =
    if key = claim.key then none else db.deletionRequests.get key
  artifacts : db'.artifacts = db.artifacts.delete (fun key _ => key.tenantId == claim.tenantId)
  status : tenantStatus db' claim.tenantId = some .deleted
  others : ∀ id, id ≠ claim.tenantId → tenantStatus db' id = tenantStatus db id
  tenants : ∀ id, (db'.tenants.get id).isSome = (db.tenants.get id).isSome
  tenantRows : ∀ id, id ≠ claim.tenantId → db'.tenants.get id = db.tenants.get id
  audit : ∃ key row, key.tenantId = claim.tenantId ∧ row.action = "account.deleted" ∧
    db'.auditEvents = (db.auditEvents.delete (fun key _ => key.tenantId == claim.tenantId)).insert key row
  rest : db' = { purge claim.tenantId db with
    tenants := db'.tenants
    deletionRequests := db'.deletionRequests
    auditEvents := db'.auditEvents }

omit [ResultDocument ρ] [RequestDocument σ] in
theorem complete_ok {claim : DeletionClaim} {at' : Instant} {u : Unit} {db db' : Db ρ σ}
    (h : complete claim at' db = (.ok u, db')) : ∃ r, Purged db db' claim r := by
  simp only [complete, bind_ok, read_ok, require_ok, modify_ok, pure_ok] at h
  obtain ⟨_, _, ⟨rfl, rfl⟩, _, _, ⟨howned, rfl⟩, _, t₁, hpurge, _, _, ⟨-, rfl⟩, _, t₂, haudit, completed, t₃,
    hupdate, _, _, ⟨hsome, rfl⟩, _, t₄, hdelete, found, t₅, htenant, -, rfl⟩ := h
  simp only [Bool.and_eq_true, beq_iff_eq, Option.any_eq_true] at howned
  obtain ⟨⟨r, hr, hheld⟩, hdeleting⟩ := howned
  obtain ⟨-, ht₂⟩ := insertRetainedAudit_ok haudit
  rw [hpurge] at ht₂
  rcases updateRow_ok hupdate with ⟨rfl, -⟩ | ⟨r', hr', -, -, -, hd⟩
  · simp at hsome
  · have hstatus₄ : ∀ id, tenantStatus t₄ id = tenantStatus db id := by
      intro id
      rw [hdelete, hd, ht₂]
      rfl
    have hrequests₄ : ∀ key, t₄.deletionRequests.get key =
        if key = claim.key then none else db.deletionRequests.get key := by
      intro key
      rw [hdelete, hd, ht₂]
      by_cases hk : key = claim.key
      · subst hk
        rw [if_pos rfl]
        exact Table.get_delete_self _ _
      · rw [if_neg hk]
        exact (Table.get_delete_other _ hk).trans (Table.get_set_other _ _ hk)
    have hartifacts₄ : t₄.artifacts = db.artifacts.delete (fun key _ => key.tenantId == claim.tenantId) := by
      rw [hdelete, hd, ht₂]
      rfl
    have htenantRows₄ : ∀ id, t₄.tenants.get id = db.tenants.get id := by
      intro id
      rw [hdelete, hd, ht₂]
      rfl
    have htenants₄ : ∀ id, (t₄.tenants.get id).isSome = (db.tenants.get id).isSome :=
      fun id => congrArg Option.isSome (htenantRows₄ id)
    refine ⟨r, ?_⟩
    rcases updateTenant_ok .deleted (fun t => rfl) htenant with
      ⟨rfl, hskip⟩ | ⟨tenant, -, -, hstatus, hother, hsome', hframe⟩
    · obtain ⟨tenant, ht, hts⟩ := Option.map_eq_some_iff.mp ((hstatus₄ claim.tenantId).trans hdeleting)
      have hf := hskip tenant ht
      simp [hts] at hf
    · exact {
        request := hr
        held := hheld
        before := hdeleting
        requests := fun key => by rw [hframe]; exact hrequests₄ key
        artifacts := (congrArg Db.artifacts hframe).trans hartifacts₄
        status := hstatus
        others := fun id hid => (tenantStatus_congr (hother id hid)).trans (hstatus₄ id)
        tenants := fun id => (hsome' id).trans (htenants₄ id)
        tenantRows := fun id hid => (hother id hid).trans (htenantRows₄ id)
        audit := ⟨_, _, rfl, rfl, by rw [hframe, hdelete, hd, ht₂]; rfl⟩
        rest := by rw [hframe, hdelete, hd, ht₂] }

end ReproForge
