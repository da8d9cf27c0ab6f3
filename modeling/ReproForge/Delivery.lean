import ReproForge.Lockstep

/-!
# Delivery of wake-ups

Publishers, the queue provider and consumers around the database. A publisher
sends the events that it claimed and reports their delivery, the provider keeps
a message until it is acknowledged, and a consumer starts on a message by
claiming the lease of its job and may acknowledge once that claim is answered.
-/
namespace ReproForge

open KeyedTable Transactions Transactions.Tx

variable {ρ σ : Type} [ResultDocument ρ] [RequestDocument σ] [Sha256]

/-- The kinds of message that `consume` does not ignore. -/
def QueueMessage.wakes (message : QueueMessage) : Bool :=
  message.kind == .requested || message.kind == .recoveryRequested

inductive SendOutcome where
  | accepted
  /-- The provider has the message and the publisher sees an error. -/
  | unreported
  | rejected
  /-- The idempotency key was used before: nothing is stored, the publisher sees a success. -/
  | repeated
  deriving DecidableEq, Repr

structure Delivery (ρ σ : Type) where
  db : Db ρ σ
  /-- Messages that the provider holds and may deliver, any number of times. -/
  inFlight : List QueueMessage
  /-- Messages that the provider has ever accepted. -/
  accepted : List QueueMessage
  /-- Claims that publishers hold, and those among them whose send returned. -/
  claims : List OutboxClaim
  sent : List OutboxClaim
  /-- Messages whose consumer has an answer to its lease claim and may acknowledge. -/
  answered : List QueueMessage

def Delivery.initial (now : Instant) (tenants : Table String TenantRow) : Delivery ρ σ :=
  ⟨Db.initial now tenants, [], [], [], [], []⟩

inductive DeliveryAction (ρ σ : Type) where
  | event : Event ρ σ → DeliveryAction ρ σ
  | claimPending : List Attempt → ClaimPendingInput → List Key → DeliveryAction ρ σ
  | send : OutboxClaim → SendOutcome → DeliveryAction ρ σ
  | markDelivered : List Attempt → OutboxClaim → DeliveryInput → DeliveryAction ρ σ
  | receive : List Attempt → QueueMessage → (ownerId : String) → (leaseSeconds : Int) → Instant →
      DeliveryAction ρ σ
  | acknowledge : QueueMessage → DeliveryAction ρ σ

def QueueMessage.claimInput (message : QueueMessage) (ownerId : String) (leaseSeconds : Int)
    (at' : Instant) : ClaimInput :=
  ⟨at', message.jobId, leaseSeconds, ownerId, message.tenantId⟩

/-- A claim whose reply is an error makes `consume` throw, so the message stays. -/
def Delivery.receive (attempts : List Attempt) (message : QueueMessage) (input : ClaimInput)
    (w : Delivery ρ σ) : Delivery ρ σ :=
  if message.wakes then
    match runSerializableTransaction 3 attempts (claimLease input) w.db with
    | (.ok _, db) => { w with db := db, answered := message :: w.answered }
    | (.error _, db) => { w with db := db }
  else { w with answered := message :: w.answered }

def Delivery.step : DeliveryAction ρ σ → Delivery ρ σ → Delivery ρ σ
  | .event event, w => { w with db := ReproForge.step event w.db }
  | .claimPending attempts input locked, w =>
    match runSerializableTransaction 3 attempts (ReproForge.claimPending input locked) w.db with
    | (.ok claims, db) => { w with db := db, claims := claims ++ w.claims }
    | (.error _, db) => { w with db := db }
  | .send claim .accepted, w =>
    { w with
      inFlight := claim.message :: w.inFlight
      accepted := claim.message :: w.accepted
      sent := claim :: w.sent }
  | .send claim .unreported, w =>
    { w with inFlight := claim.message :: w.inFlight, accepted := claim.message :: w.accepted }
  | .send _ .rejected, w => w
  | .send claim .repeated, w => { w with sent := claim :: w.sent }
  | .markDelivered attempts claim input, w =>
    { w with db := ReproForge.step (.call attempts (.markDelivered claim input)) w.db }
  | .receive attempts message ownerId leaseSeconds at', w =>
    w.receive attempts message (message.claimInput ownerId leaseSeconds at')
  | .acknowledge message, w =>
    { w with inFlight := w.inFlight.erase message, answered := w.answered.erase message }

/-! ## What the parties do -/

/-- No statement removes a tenant or makes one active again. -/
def TenantsKept (db : Db ρ σ) (tenants : Table String TenantRow) : Prop :=
  ∀ id t, db.tenants.get id = some t →
    ∃ t', tenants.get id = some t' ∧ (t'.status = .active → t.status = .active)

/-- Events of the database beside the deliveries: starts that the services issue, and records
of reproductions that the database holds. -/
structure Permitted (db : Db ρ σ) (event : Event ρ σ) : Prop where
  edits : ∀ record, event.edits record → Anchored db record
  delivers : ∀ claim, ¬ event.delivers claim
  starts : ∀ attempts limits input, event = .call attempts (.start limits input) →
    ServiceStart reservationLifetime input
  tenants : ∀ t, event = .tenants t → TenantsKept db t

def Delivery.Permitted (w : Delivery ρ σ) : DeliveryAction ρ σ → Prop
  | .event event => ReproForge.Permitted w.db event
  | .claimPending _ _ _ => True
  | .send claim outcome => claim ∈ w.claims ∧ (outcome = .repeated → claim.message ∈ w.accepted)
  | .markDelivered _ claim _ => claim ∈ w.sent
  | .receive _ message _ _ _ => message ∈ w.inFlight
  | .acknowledge message => message ∈ w.answered

/-! ## The wake-up of a queued job -/

/-- The message of the event that put a job in the queue at its current attempt. -/
def wakeUp (key : Key) (j : JobRow) : QueueMessage :=
  if j.attempt = 0 then ⟨j.caseId, "outbox_" ++ j.caseId, key.id, .requested, "1.0", key.tenantId⟩
  else recoveryMessage key j

theorem wakeUp_wakes (key : Key) (j : JobRow) : (wakeUp key j).wakes = true := by
  unfold wakeUp
  split <;> rfl

theorem wakeUp_job (key : Key) (j : JobRow) : (wakeUp key j).tenantId = key.tenantId ∧ (wakeUp key j).jobId = key.id := by
  unfold wakeUp
  split <;> exact ⟨rfl, rfl⟩

/-- The digests that name the recovery events of a tenant differ. -/
def DistinctDigests (db : Db ρ σ) : Prop :=
  ∀ key j key' j' n n', db.jobs.get key = some j → db.jobs.get key' = some j' →
    key.tenantId = key'.tenantId → 0 < n → n < j.maxAttempts → 0 < n' → n' < j'.maxAttempts →
    recoveryEventId key.tenantId key.id n = recoveryEventId key'.tenantId key'.id n' → key = key' ∧ n = n'

/-- A consumer that starts on the wake-up of a queued job reads a clock that is not before
the time for which the job is scheduled. -/
def Delivery.InTime (w : Delivery ρ σ) : DeliveryAction ρ σ → Prop
  | .receive _ message _ _ at' => ∀ key j, w.db.jobs.get key = some j → j.state = .queued →
      message = wakeUp key j → j.nextAttemptAt ≤ at'
  | _ => True

/-- A claim of the job by a valid worker whose reading is late enough for the rows. -/
structure Due (db : Db ρ σ) (key : Key) (j : JobRow) (input : ClaimInput) : Prop where
  job : input.jobId = key.id
  tenant : input.tenantId = key.tenantId
  owner : opaqueId input.ownerId = true
  lower : 1 ≤ input.leaseSeconds
  upper : input.leaseSeconds ≤ 3600
  reading : datetime input.at' = true
  expiry : datetime input.expiresAt = true
  scheduled : j.nextAttemptAt ≤ input.at'
  jobUpdated : j.updatedAt ≤ input.at'
  caseUpdated : ∀ c, db.cases.get ⟨key.tenantId, j.caseId⟩ = some c → c.updatedAt ≤ input.at'
  version : j.version < maxSafeInteger

/-- The queued jobs that still count: of an active tenant, with attempts left. -/
structure Waiting (db : Db ρ σ) (key : Key) (j : JobRow) : Prop where
  job : db.jobs.get key = some j
  queued : j.state = .queued
  active : tenantActive db key.tenantId = true
  attempts : j.attempt < j.maxAttempts

/-- The wake-up is still to be published; an event that is dead has used up its deliveries. -/
def Unpublished (db : Db ρ σ) (key : Key) (j : JobRow) : Prop :=
  ∃ o, db.outboxEvents.get (messageKey (wakeUp key j)) = some o ∧ o.payload = wakeUp key j ∧
    (o.status = .pending ∨ o.status = .sending ∨ o.status = .dead)

/-- The wake-up is in the queue and processing it when it is due claims the job. -/
structure InQueue (w : Delivery ρ σ) (key : Key) (j : JobRow) : Prop where
  inFlight : wakeUp key j ∈ w.inFlight
  claims : ∀ input, Due w.db key j input → ∃ lease db', claimLease input w.db = (.ok (some lease), db')

/-- No queued job has lost its wake-up. -/
def Woken (w : Delivery ρ σ) : Prop :=
  ∀ key j, Waiting w.db key j → Unpublished w.db key j ∨ InQueue w key j

end ReproForge
