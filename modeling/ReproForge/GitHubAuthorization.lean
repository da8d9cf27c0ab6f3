import ReproForge.Platform
import ReproForge.Registers
import Mathlib.Tactic

/-!
# GitHub authorization

The store behind the GitHub App: an installation callback binds a snapshot of
the installation, webhooks change its status, and the deliveries about its
repositories reconcile them with a snapshot that was read before.
-/
namespace ReproForge

open KeyedTable Transactions Transactions.Tx

variable {ρ σ : Type}

/-! ## The status of an installation -/

structure GitHubAuthorizationState where
  providerUpdatedAt : Option Instant
  status : GitHubAuthorizationStatus
  deriving DecidableEq, Repr

structure GitHubAuthorizationTransition where
  at' : Instant
  status : GitHubAuthorizationStatus
  deriving DecidableEq, Repr

/-- `STATUS_PRECEDENCE` -/
def GitHubAuthorizationStatus.precedence : GitHubAuthorizationStatus → Nat
  | .active => 0
  | .suspended => 1
  | .removed => 2

def GitHubAuthorizationTransition.state (t : GitHubAuthorizationTransition) : GitHubAuthorizationState :=
  ⟨some t.at', t.status⟩

def reduceGitHubAuthorizationState (current : GitHubAuthorizationState)
    (transition : GitHubAuthorizationTransition) : GitHubAuthorizationState :=
  if current.status = .removed then
    if transition.status = .removed && current.providerUpdatedAt.all (· < transition.at') then
      ⟨some transition.at', .removed⟩
    else current
  else if transition.status = .removed then ⟨some transition.at', .removed⟩
  else
    match current.providerUpdatedAt with
    | none => ⟨some transition.at', transition.status⟩
    | some currentTime =>
      if currentTime < transition.at' then ⟨some transition.at', transition.status⟩
      else if transition.at' < currentTime then current
      else if current.status.precedence < transition.status.precedence then
        ⟨some transition.at', transition.status⟩
      else current

/-- No time comes before every time. -/
def GitHubAuthorizationState.time (s : GitHubAuthorizationState) : WithBot Int := s.providerUpdatedAt

/-- A removal ranks above everything else, then the provider's time decides, then the precedence
of the status. -/
def GitHubAuthorizationState.rank (s : GitHubAuthorizationState) : Bool ×ₗ WithBot Int ×ₗ Nat :=
  toLex (s.status == .removed, toLex (s.time, s.status.precedence))

/-! ## What the provider sends -/

structure VerifiedGitHubRepository where
  defaultBranch : String
  fullName : String
  isPrivate : Bool
  repositoryId : Nat
  deriving DecidableEq, Repr

/-- A snapshot of an installation; its permissions are those that the App asks for. -/
structure VerifiedGitHubInstallation where
  accountId : Nat
  accountLogin : String
  installationId : Nat
  providerUpdatedAt : Option Instant
  repositories : List VerifiedGitHubRepository
  repositorySelection : RepositorySelection
  deriving DecidableEq, Repr

/-- A positive safe integer. -/
def providerId (n : Nat) : Bool := 0 < n && n ≤ maxSafeInteger

def VerifiedGitHubRepository.valid (r : VerifiedGitHubRepository) : Bool :=
  1 ≤ utf16Length r.defaultBranch && utf16Length r.defaultBranch ≤ 255 &&
    r.defaultBranch.toList.all (fun c => 32 ≤ c.toNat && c.toNat != 127) && 3 ≤ utf16Length r.fullName &&
    utf16Length r.fullName ≤ 255 && ownerAndName r.fullName && providerId r.repositoryId

def VerifiedGitHubInstallation.repositoryIds (i : VerifiedGitHubInstallation) : List Nat :=
  i.repositories.map VerifiedGitHubRepository.repositoryId

/-- `installationSchema` -/
def VerifiedGitHubInstallation.valid (i : VerifiedGitHubInstallation) : Bool :=
  providerId i.accountId && isAccountLogin i.accountLogin && providerId i.installationId &&
    i.providerUpdatedAt.all datetime && i.repositories.all VerifiedGitHubRepository.valid &&
    i.repositories.length ≤ 10000 && decide i.repositoryIds.Nodup

structure WebhookInstallation where
  action : String
  id : Nat
  permissions : Table String String
  suspendedAt : Option Instant
  updatedAt : Instant

/-- `webhookInstallationSchema` -/
def WebhookInstallation.valid (w : WebhookInstallation) : Bool :=
  isWebhookAction w.action && providerId w.id && w.suspendedAt.all datetime && datetime w.updatedAt

/-- `permissionsSchema.safeParse(…).success` -/
def exactPermissions (permissions : Table String String) : Bool :=
  permissions.rows.length == 3 &&
    ["contents", "issues", "metadata"].all (fun name => permissions.get name == some "read")

inductive RepositoriesAction where
  | added | removed
  deriving DecidableEq, Repr

def RepositoriesAction.text : RepositoriesAction → String
  | .added => "added"
  | .removed => "removed"

structure AddedRepository where
  defaultBranch : Option String
  fullName : Option String
  id : Nat
  isPrivate : Option Bool
  deriving DecidableEq, Repr

structure WebhookRepositories where
  action : RepositoriesAction
  id : Nat
  updatedAt : Instant
  repositoriesAdded : List AddedRepository
  repositoriesRemoved : List Nat
  deriving DecidableEq, Repr

def AddedRepository.valid (r : AddedRepository) : Bool :=
  r.defaultBranch.all (fun b => 1 ≤ utf16Length b && utf16Length b ≤ 255) &&
    r.fullName.all (fun n => 3 ≤ utf16Length n && utf16Length n ≤ 255 && ownerAndName n) && providerId r.id

/-- `webhookRepositorySchema` -/
def WebhookRepositories.valid (w : WebhookRepositories) : Bool :=
  providerId w.id && datetime w.updatedAt && w.repositoriesAdded.all AddedRepository.valid &&
    w.repositoriesAdded.length ≤ 10000 && w.repositoriesRemoved.all providerId &&
    w.repositoriesRemoved.length ≤ 10000

/-- A JSON value: its digest, the positive safe integer at `installation.id`, and what each
of the two schemas finds in it. -/
structure WebhookPayload where
  hash : String
  installationId : Option Nat
  installation : Option WebhookInstallation
  repositories : Option WebhookRepositories
  identified : ∀ r, repositories = some r → r.valid = true → installationId = some r.id

structure GitHubWebhookEnvelope where
  deliveryId : String
  event : WebhookEvent
  payload : WebhookPayload

namespace GitHubWebhookEnvelope

/-- `installationPayload.data` -/
def installation (e : GitHubWebhookEnvelope) : Option WebhookInstallation :=
  if e.event = .installation then e.payload.installation.filter WebhookInstallation.valid else none

/-- `repositoryPayload.data` -/
def repositories (e : GitHubWebhookEnvelope) : Option WebhookRepositories :=
  if e.event = .installationRepositories then e.payload.repositories.filter WebhookRepositories.valid else none

def installationId (e : GitHubWebhookEnvelope) : Option Nat :=
  (e.installation.map WebhookInstallation.id).or (e.repositories.map WebhookRepositories.id)

def action (e : GitHubWebhookEnvelope) : Option String :=
  (e.installation.map WebhookInstallation.action).or (e.repositories.map (fun r => r.action.text))

/-- `gitHubWebhookInstallationId` -/
def snapshotId (e : GitHubWebhookEnvelope) : Option Nat :=
  if e.event = .installationRepositories then e.payload.installationId else none

end GitHubWebhookEnvelope

/-- `desiredStatus`; no status for an action that changes none. -/
def WebhookInstallation.desiredStatus (w : WebhookInstallation) : Option GitHubAuthorizationStatus :=
  if w.action = "deleted" then some .removed
  else if w.action = "suspended" || !exactPermissions w.permissions then some .suspended
  else if w.action = "unsuspended" || w.action = "new_permissions_accepted" then some .active
  else none

def WebhookInstallation.transition (w : WebhookInstallation) : Option GitHubAuthorizationTransition :=
  w.desiredStatus.map (fun status => ⟨w.updatedAt, status⟩)

/-! ## Statements -/

def PlatformStatement.constraint {α : Type} : PlatformStatement ρ σ α := fail (.database .constraint)

structure GitHubInstallationActor where
  principalId : String
  tenantId : String
  deriving DecidableEq, Repr

/-- The row that a link stores. -/
def InstallationRow.linked (principalId : String) (i : VerifiedGitHubInstallation) (now : Instant) :
    InstallationRow where
  linkedByPrincipalId := principalId
  accountId := i.accountId
  accountLogin := i.accountLogin
  repositorySelection := i.repositorySelection
  status := .active
  providerUpdatedAt := i.providerUpdatedAt
  createdAt := now
  updatedAt := now
  suspendedAt := none
  removedAt := none

/-- `ON CONFLICT (tenant_id, installation_id) DO UPDATE`; the identifier of an installation is
unique among all tenants. -/
def upsertInstallation (key : InstallationKey) (principalId : String) (i : VerifiedGitHubInstallation) :
    PlatformStatement ρ σ Unit := fun p =>
  let row := InstallationRow.linked principalId i p.db.now
  if (p.principals.get ⟨key.tenantId, principalId⟩).isNone then (.error (.database .constraint), p)
  else
    match p.installations.get key with
    | some old =>
      let row := { row with createdAt := old.createdAt }
      if row.checks key then (.ok (), { p with installations := p.installations.set key row })
      else (.error (.database .constraint), p)
    | none =>
      if row.checks key && (p.installations.find? (fun k _ => k.installationId == key.installationId)).isNone then
        (.ok (), { p with installations := p.installations.insert key row })
      else (.error (.database .constraint), p)

def updateInstallation (key : InstallationKey) (assign : InstallationRow → InstallationRow) :
    PlatformStatement ρ σ Unit := fun p =>
  match p.installations.get key with
  | none => (.ok (), p)
  | some row =>
    if (assign row).checks key then (.ok (), { p with installations := p.installations.set key (assign row) })
    else (.error (.database .constraint), p)

/-- A repository that belongs to the installation. -/
def RepositoryRow.under (r : RepositoryRow) (key : Key) (installation : InstallationKey) : Bool :=
  key.tenantId == installation.tenantId && r.installationId == installation.installationId

def RepositoryRow.moved (status : RepositoryStatus) (at' : Instant) (r : RepositoryRow) : RepositoryRow :=
  { r with
    status := status
    removedAt := if status = .removed then some at' else none
    updatedAt := at' }

/-- Every active repository of the installation is removed. -/
def removeRepositories (installation : InstallationKey) (at' : Instant) : PlatformStatement ρ σ Unit := fun p =>
  let condition := fun (key : Key) (r : RepositoryRow) => r.under key installation && r.status == .active
  if (p.repositories.select condition).all (fun row => (row.2.moved .removed at').checks row.1) then
    (.ok (), { p with repositories := p.repositories.update condition (fun _ => RepositoryRow.moved .removed at') })
  else (.error (.database .constraint), p)

def findRepositoryRow (p : Platform ρ σ) (installation : InstallationKey) (providerRepositoryId : Nat) :
    Option (Key × RepositoryRow) :=
  p.repositories.find? (fun key r => r.under key installation && r.providerRepositoryId == providerRepositoryId)

def RepositoryRow.granted (installation : InstallationKey) (repository : VerifiedGitHubRepository)
    (providerUpdatedAt : Option Instant) (now : Instant) : RepositoryRow where
  installationId := installation.installationId
  providerRepositoryId := repository.repositoryId
  fullName := repository.fullName
  defaultBranch := repository.defaultBranch
  isPrivate := repository.isPrivate
  status := .active
  providerUpdatedAt := providerUpdatedAt
  createdAt := now
  updatedAt := now
  removedAt := none

/-- The excluded row of an upsert, over the one that is stored. -/
def RepositoryRow.replacing (row old : RepositoryRow) : RepositoryRow :=
  { row with
    createdAt := old.createdAt
    providerUpdatedAt := row.providerUpdatedAt.or old.providerUpdatedAt }

/-- An identifier of the provider names one repository among all tenants. -/
def insertRepository (key : Key) (installation : InstallationKey) (row : RepositoryRow) :
    PlatformStatement ρ σ Unit := fun p =>
  if row.checks key && (p.repositories.get key).isNone &&
      (p.repositories.find? (fun _ r => r.providerRepositoryId == row.providerRepositoryId)).isNone &&
      (p.installations.get installation).isSome then
    (.ok (), { p with repositories := p.repositories.insert key row })
  else (.error (.database .constraint), p)

def updateRepository (key : Key) (row : RepositoryRow) : PlatformStatement ρ σ Unit := fun p =>
  if row.checks key then (.ok (), { p with repositories := p.repositories.set key row })
  else (.error (.database .constraint), p)

/-- `fresh` is the identifier that is drawn for a repository that is not stored yet. -/
def upsertRepository (installation : InstallationKey) (providerUpdatedAt : Option Instant) (fresh : Nat → String)
    (repository : VerifiedGitHubRepository) : PlatformStatement ρ σ Unit := do
  let p ← read
  let row := RepositoryRow.granted installation repository providerUpdatedAt p.db.now
  match findRepositoryRow p installation repository.repositoryId with
  | some (key, old) =>
    require (opaqueId key.id) .schema
    updateRepository key (row.replacing old)
  | none =>
    require (opaqueId (fresh repository.repositoryId)) .schema
    insertRepository ⟨installation.tenantId, fresh repository.repositoryId⟩ installation row

def appendAuthorizationAudit (event : AuditEvent) : PlatformStatement ρ σ Unit := do
  require event.valid .schema
  Platform.lift (insertAuditEvent ⟨event.tenantId, event.eventId⟩
    { actorId := event.actorId
      action := event.action
      targetType := event.targetType
      targetId := event.targetId
      outcome := event.outcome
      metadata := event.metadata
      occurredAt := event.occurredAt })

/-- What a transaction draws at random, and the clock of its host. -/
structure Draws where
  at' : Instant
  auditEventId : String
  repositoryId : Nat → String

def RepositorySelection.text : RepositorySelection → String
  | .all => "all"
  | .selected => "selected"

def bind (actor : GitHubInstallationActor) (installation : VerifiedGitHubInstallation) (draws : Draws) :
    PlatformStatement ρ σ Unit := do
  require (opaqueId actor.principalId && opaqueId actor.tenantId && installation.valid) .schema
  let key : InstallationKey := ⟨actor.tenantId, installation.installationId⟩
  upsertInstallation key actor.principalId installation
  let p ← read
  removeRepositories key p.db.now
  let _ ← forEach (upsertRepository key none draws.repositoryId) installation.repositories
  appendAuthorizationAudit
    { action := "github.installation-linked"
      actorId := actor.principalId
      eventId := draws.auditEventId
      metadata := [("selection", .text installation.repositorySelection.text)]
      occurredAt := draws.at'
      outcome := .success
      targetId := toString installation.installationId
      targetType := .installation
      tenantId := actor.tenantId }

/-- `UPDATE github_installation_states SET consumed_at … RETURNING` -/
def consumeState (actor : GitHubInstallationActor) (stateHash : String) (at' : Instant) :
    PlatformStatement ρ σ Bool := fun p =>
  match p.installationStates.get stateHash with
  | none => (.ok false, p)
  | some s =>
    if s.tenantId == actor.tenantId && s.principalId == actor.principalId && s.consumedAt.isNone &&
        at' ≤ s.expiresAt then
      if s.createdAt ≤ at' then
        (.ok true, { p with
          installationStates := p.installationStates.set stateHash { s with consumedAt := some at' } })
      else (.error (.database .constraint), p)
    else (.ok false, p)

def consume (actor : GitHubInstallationActor) (stateHash : String) (at' : Instant) : PlatformStatement ρ σ Bool := do
  require (opaqueId actor.principalId && opaqueId actor.tenantId && hexDigest 64 stateHash && datetime at') .schema
  consumeState actor stateHash at'

/-! ## Webhooks -/

def InstallationRow.authorization (i : InstallationRow) : GitHubAuthorizationState := ⟨i.providerUpdatedAt, i.status⟩

def InstallationRow.transitioned (next : GitHubAuthorizationState) (at' : Instant) (i : InstallationRow) :
    InstallationRow :=
  { i with
    status := next.status
    suspendedAt := if next.status = .suspended then some at' else none
    removedAt := if next.status = .removed then some at' else none
    updatedAt := at'
    providerUpdatedAt := next.providerUpdatedAt }

def GitHubAuthorizationStatus.auditAction : GitHubAuthorizationStatus → String
  | .removed => "github.installation-removed"
  | .suspended => "github.installation-suspended"
  | .active => "github.installation-activated"

def applyInstallationWebhook (tenantId : String) (payload : WebhookInstallation) (draws : Draws) :
    PlatformStatement ρ σ (Option AuditEvent) := do
  match payload.transition with
  | none => pure none
  | some transition =>
    let key : InstallationKey := ⟨tenantId, payload.id⟩
    let p ← read
    match p.installations.get key with
    | none => pure none
    | some row =>
      let next := reduceGitHubAuthorizationState row.authorization transition
      if next = row.authorization then pure none
      else
        updateInstallation key (InstallationRow.transitioned next draws.at')
        let _ ← (if next.status = .removed then removeRepositories key draws.at' else pure ())
        pure (some
          { action := next.status.auditAction
            actorId := "github-webhook"
            eventId := draws.auditEventId
            metadata := [("permissionsExact", .flag (exactPermissions payload.permissions)),
              ("provider", .text "github")]
            occurredAt := draws.at'
            outcome := .success
            targetId := toString payload.id
            targetType := .installation
            tenantId := tenantId })

def RepositoryRow.authorization (r : RepositoryRow) : GitHubAuthorizationState :=
  ⟨r.providerUpdatedAt, if r.status = .active then .active else .removed⟩

def RepositoryStatus.transition (status : RepositoryStatus) (at' : Instant) : GitHubAuthorizationTransition :=
  ⟨at', if status = .active then .active else .removed⟩

/-- A repository named by a delivery without a snapshot. -/
def applyRepositoryTransition (installation : InstallationKey) (providerRepositoryId : Nat)
    (status : RepositoryStatus) (providerUpdatedAt : Instant) (draws : Draws)
    (repository : Option VerifiedGitHubRepository) : PlatformStatement ρ σ Unit := do
  let p ← read
  match findRepositoryRow p installation providerRepositoryId with
  | none =>
    match status, repository with
    | .active, some repository =>
      require (opaqueId (draws.repositoryId providerRepositoryId)) .schema
      insertRepository ⟨installation.tenantId, draws.repositoryId providerRepositoryId⟩ installation
        (.granted installation repository (some providerUpdatedAt) p.db.now)
    | _, _ => pure ()
  | some (key, row) =>
    let next := reduceGitHubAuthorizationState row.authorization (status.transition providerUpdatedAt)
    if next = row.authorization then pure ()
    else
      let named := match repository with
        | none => row
        | some r => { row with fullName := r.fullName, defaultBranch := r.defaultBranch, isPrivate := r.isPrivate }
      updateRepository key
        { named.moved (if next.status = .active then .active else .removed) draws.at' with
          providerUpdatedAt := next.providerUpdatedAt }

/-- A repository that a delivery adds with everything that is to be stored of it. -/
def AddedRepository.complete (r : AddedRepository) : Option VerifiedGitHubRepository :=
  match r.defaultBranch, r.fullName, r.isPrivate with
  | some defaultBranch, some fullName, some isPrivate => some ⟨defaultBranch, fullName, isPrivate, r.id⟩
  | _, _, _ => none

def InstallationRow.reconciled (i : VerifiedGitHubInstallation) (at' : Instant) (row : InstallationRow) :
    InstallationRow :=
  { row with
    accountId := i.accountId
    accountLogin := i.accountLogin
    repositorySelection := i.repositorySelection
    providerUpdatedAt := i.providerUpdatedAt.or row.providerUpdatedAt
    updatedAt := at' }

def reconcile (tenantId : String) (installation : VerifiedGitHubInstallation) (draws : Draws) :
    PlatformStatement ρ σ Unit := do
  let key : InstallationKey := ⟨tenantId, installation.installationId⟩
  updateInstallation key (InstallationRow.reconciled installation draws.at')
  removeRepositories key draws.at'
  let _ ← forEach (upsertRepository key installation.providerUpdatedAt draws.repositoryId) installation.repositories
  pure ()

/-- The repositories that a delivery without a snapshot names. -/
def adjustRepositories (tenantId : String) (payload : WebhookRepositories) (draws : Draws) :
    PlatformStatement ρ σ Unit := do
  let key : InstallationKey := ⟨tenantId, payload.id⟩
  let _ ← forEach (fun id => applyRepositoryTransition key id .removed payload.updatedAt draws none)
    payload.repositoriesRemoved
  let _ ← forEach (fun (r : AddedRepository) =>
    match r.complete with
    | none => pure ()
    | some repository => applyRepositoryTransition key r.id .active payload.updatedAt draws (some repository))
    payload.repositoriesAdded
  pure ()

def repositoriesAudit (tenantId : String) (payload : WebhookRepositories) (draws : Draws) (reconciled : Bool) :
    AuditEvent where
  action := "github.repositories-updated"
  actorId := "github-webhook"
  eventId := draws.auditEventId
  metadata := [("added", .number payload.repositoriesAdded.length), ("provider", .text "github"),
    ("reconciled", .flag reconciled), ("removed", .number payload.repositoriesRemoved.length)]
  occurredAt := draws.at'
  outcome := .success
  targetId := toString payload.id
  targetType := .installation
  tenantId := tenantId

def applyRepositoryWebhook (tenantId : String) (payload : WebhookRepositories) (draws : Draws)
    (installation : Option VerifiedGitHubInstallation) : PlatformStatement ρ σ AuditEvent :=
  match installation with
  | some installation => do
    require (installation.installationId == payload.id) .snapshotMismatch
    reconcile tenantId installation draws
    pure (repositoriesAudit tenantId payload draws true)
  | none => do
    adjustRepositories tenantId payload draws
    pure (repositoriesAudit tenantId payload draws false)

/-! ## Deliveries -/

/-- `ON CONFLICT (delivery_id) DO NOTHING RETURNING delivery_id` -/
def insertDelivery (id : String) (row : DeliveryRow) : PlatformStatement ρ σ Bool := fun p =>
  if !row.checks id then (.error (.database .constraint), p)
  else if (p.webhookDeliveries.get id).isSome then (.ok false, p)
  else (.ok true, { p with webhookDeliveries := p.webhookDeliveries.insert id row })

def completeDelivery (id : String) (at' : Instant) (tenantId : Option String) (outcome : DeliveryOutcome) :
    PlatformStatement ρ σ Unit := fun p =>
  match p.webhookDeliveries.get id with
  | none => (.ok (), p)
  | some row =>
    if row.outcome = .processing then
      let row := { row with tenantId := tenantId, outcome := outcome, processedAt := some at' }
      if row.checks id && tenantId.all (fun t => (p.db.tenants.get t).isSome) then
        (.ok (), { p with webhookDeliveries := p.webhookDeliveries.set id row })
      else (.error (.database .constraint), p)
    else (.ok (), p)

/-- The tenant to which an installation is linked. -/
def findOwner (p : Platform ρ σ) (installationId : Nat) : Option String :=
  (p.installations.find? (fun key _ => key.installationId == installationId)).map (fun row => row.1.tenantId)

inductive Disposition where
  | accepted | duplicate
  deriving DecidableEq, Repr

def newDelivery (e : GitHubWebhookEnvelope) (at' : Instant) : DeliveryRow where
  event := e.event
  payloadHash := e.payload.hash
  tenantId := none
  installationId := e.installationId
  action := e.action
  outcome := .processing
  receivedAt := at'
  processedAt := none
  expiresAt := at' + days 30

/-- What the event of a first delivery does for the tenant of the installation. -/
def applyDelivery (tenantId : String) (e : GitHubWebhookEnvelope) (installation : Option VerifiedGitHubInstallation)
    (draws : Draws) : PlatformStatement ρ σ (Option AuditEvent) :=
  match e.installation, e.repositories with
  | some payload, _ => applyInstallationWebhook tenantId payload draws
  | none, some payload => do
    let audit ← applyRepositoryWebhook tenantId payload draws installation
    pure (some audit)
  | none, none => pure none

def recordAudit : Option AuditEvent → PlatformStatement ρ σ Unit
  | none => pure ()
  | some event => appendAuthorizationAudit event

def firstDelivery (e : GitHubWebhookEnvelope) (installation : Option VerifiedGitHubInstallation) (draws : Draws) :
    PlatformStatement ρ σ Unit := do
  let p ← read
  match e.installationId.bind (findOwner p) with
  | none => completeDelivery e.deliveryId draws.at' none .ignored
  | some tenantId => do
    let audit ← applyDelivery tenantId e installation draws
    completeDelivery e.deliveryId draws.at' (some tenantId) (if audit.isSome then .accepted else .ignored)
    recordAudit audit

/-- A snapshot is applied again, with any delivery that brings one. -/
def redelivery (e : GitHubWebhookEnvelope) (installation : Option VerifiedGitHubInstallation) (draws : Draws) :
    PlatformStatement ρ σ Unit :=
  match e.repositories, installation with
  | some payload, some installation => do
    let p ← read
    match findOwner p payload.id with
    | none => pure ()
    | some tenantId => do
      let _ ← applyRepositoryWebhook tenantId payload draws (some installation)
      pure ()
  | _, _ => pure ()

def processWebhook (e : GitHubWebhookEnvelope) (installation : Option VerifiedGitHubInstallation) (draws : Draws) :
    PlatformStatement ρ σ Disposition := do
  require (isDeliveryId e.deliveryId && installation.all VerifiedGitHubInstallation.valid) .schema
  let inserted ← insertDelivery e.deliveryId (newDelivery e draws.at')
  if inserted then do
    firstDelivery e installation draws
    pure .accepted
  else do
    redelivery e installation draws
    pure .duplicate

end ReproForge
