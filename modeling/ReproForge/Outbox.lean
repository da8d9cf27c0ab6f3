import ReproForge.DurableStart

/-!
# The outbox

Claiming pending events for delivery and recording what became of a delivery.
A claim names the version of the row it took, and the outcome of a delivery is
recorded against that claim only.
-/
namespace ReproForge

open KeyedTable Transactions Transactions.Tx

variable {ρ σ : Type}

namespace OutboxRow

def claimable (at' : Instant) (o : OutboxRow) : Bool :=
  (o.status == .pending && o.nextAttemptAt ≤ at') ||
    (o.status == .sending && o.claimExpiresAt.any (· ≤ at'))

def claimed (ownerId : String) (at' claimExpiresAt : Instant) (o : OutboxRow) : OutboxRow :=
  { o with
    status := .sending
    claimOwner := some ownerId
    claimExpiresAt := some claimExpiresAt
    deliveryCount := o.deliveryCount + 1
    lastErrorCode := none
    updatedAt := at'
    version := o.version + 1 }

def delivered (deliveredAt : Instant) (providerMessageId : Option String) (o : OutboxRow) : OutboxRow :=
  { o with
    status := .delivered
    deliveredAt := some deliveredAt
    providerMessageId := providerMessageId
    claimOwner := none
    claimExpiresAt := none
    lastErrorCode := none
    updatedAt := deliveredAt
    version := o.version + 1 }

def failedDelivery (errorCode : String) (maxAttempts : Nat) (nextAttemptAt failedAt : Instant)
    (o : OutboxRow) : OutboxRow :=
  { o with
    status := if maxAttempts ≤ o.deliveryCount then .dead else .pending
    nextAttemptAt := nextAttemptAt
    lastErrorCode := some errorCode
    claimOwner := none
    claimExpiresAt := none
    updatedAt := failedAt
    version := o.version + 1 }

theorem failedDelivery_status (errorCode : String) (maxAttempts : Nat) (nextAttemptAt failedAt : Instant)
    (o : OutboxRow) :
    (o.failedDelivery errorCode maxAttempts nextAttemptAt failedAt).status ≠ .delivered := by
  simp only [failedDelivery]
  split <;> simp

/-- The row is still held by this claim. -/
def heldBy (o : OutboxRow) (claim : OutboxClaim) : Bool :=
  o.status == .sending && o.claimOwner == some claim.claimOwnerId &&
    o.claimExpiresAt == some claim.claimExpiresAt && o.deliveryCount == claim.deliveryAttempt &&
    o.version == claim.version

end OutboxRow

structure ClaimPendingInput where
  at' : Instant
  claimSeconds : Int
  limit : Nat
  ownerId : String
  deriving DecidableEq, Repr

/-- Rows in the order of `ORDER BY next_attempt_at, created_at, tenant_id, id`. -/
def dueBefore (a b : Key × OutboxRow) : Bool :=
  a.2.nextAttemptAt < b.2.nextAttemptAt || (a.2.nextAttemptAt == b.2.nextAttemptAt &&
    (a.2.createdAt < b.2.createdAt || (a.2.createdAt == b.2.createdAt &&
      (a.1.tenantId < b.1.tenantId || (a.1.tenantId == b.1.tenantId && a.1.id ≤ b.1.id)))))

def dueEvents (db : Db ρ σ) (at' : Instant) (limit : Nat) (locked : List Key) : List (Key × OutboxRow) :=
  ((db.outboxEvents.select (fun key o => o.claimable at' && !locked.contains key)).mergeSort dueBefore).take
    limit

def claimEvent (at' claimExpiresAt : Instant) (ownerId : String) (event : Key × OutboxRow) :
    Statement ρ σ OutboxClaim := do
  let result ← updateOutbox event.1 (fun _ => true) (OutboxRow.claimed ownerId at' claimExpiresAt)
  let row ← demand result .connection
  let deliveryAttempt ← demand (integer row.deliveryCount) .corruptDurableRecord
  require row.payload.valid .schema
  let version ← demand (integer row.version) .corruptDurableRecord
  pure ⟨at', claimExpiresAt, ownerId, deliveryAttempt, row.payload, version⟩

/-- `locked` are the rows that `SKIP LOCKED` passes over. -/
def claimPending (input : ClaimPendingInput) (locked : List Key) : Statement ρ σ (List OutboxClaim) := do
  if datetime input.at' && 1 ≤ input.claimSeconds && input.claimSeconds ≤ 3600 && 1 ≤ input.limit &&
      input.limit ≤ 1000 && opaqueId input.ownerId then
    let claimExpiresAt := input.at' + input.claimSeconds * 1000
    require (datetime claimExpiresAt) .constraint
    let db ← read
    forEach (claimEvent input.at' claimExpiresAt input.ownerId) (dueEvents db input.at' input.limit locked)
  else pure []

structure DeliveryInput where
  deliveredAt : Instant
  providerMessageId : Option String
  deriving DecidableEq, Repr

def markDelivered (claim : OutboxClaim) (input : DeliveryInput) : Statement ρ σ Bool := do
  if datetime input.deliveredAt && claim.claimedAt ≤ input.deliveredAt &&
      input.providerMessageId.all (fun m => 1 ≤ utf16Length m && utf16Length m ≤ 512) then
    let result ← updateOutbox ⟨claim.message.tenantId, claim.message.eventId⟩ (fun o => o.heldBy claim)
      (OutboxRow.delivered input.deliveredAt input.providerMessageId)
    pure result.isSome
  else pure false

structure DeliveryFailure where
  errorCode : String
  failedAt : Instant
  maxAttempts : Nat
  nextAttemptAt : Instant
  deriving DecidableEq, Repr

def failureDisposition : Option OutboxStatus → OutboxFailureDisposition
  | some .dead => .dead
  | some .pending => .retry
  | _ => .lost

def recordFailure (claim : OutboxClaim) (input : DeliveryFailure) :
    Statement ρ σ OutboxFailureDisposition := do
  if datetime input.failedAt && datetime input.nextAttemptAt && claim.claimedAt ≤ input.failedAt &&
      input.failedAt ≤ input.nextAttemptAt && 1 ≤ input.maxAttempts && input.maxAttempts ≤ 32 &&
      isFailureCode input.errorCode then
    let result ← updateOutbox ⟨claim.message.tenantId, claim.message.eventId⟩ (fun o => o.heldBy claim)
      (OutboxRow.failedDelivery input.errorCode input.maxAttempts input.nextAttemptAt input.failedAt)
    pure (failureDisposition (result.map OutboxRow.status))
  else pure .lost

/-! ## What one outbox statement does to an event -/

inductive OutboxStep (key : Key) (o : OutboxRow) : OutboxRow → Prop where
  | claim (ownerId : String) (at' claimExpiresAt : Instant) :
      OutboxStep key o (o.claimed ownerId at' claimExpiresAt)
  | deliver (claim : OutboxClaim) (deliveredAt : Instant) (providerMessageId : Option String) :
      key = ⟨claim.message.tenantId, claim.message.eventId⟩ → o.heldBy claim = true →
      OutboxStep key o (o.delivered deliveredAt providerMessageId)
  | fail (claim : OutboxClaim) (input : DeliveryFailure) :
      key = ⟨claim.message.tenantId, claim.message.eventId⟩ → o.heldBy claim = true →
      OutboxStep key o
        (o.failedDelivery input.errorCode input.maxAttempts input.nextAttemptAt input.failedAt)

structure OutboxWrite (db db' : Db ρ σ) (key : Key) (o o' : OutboxRow) : Prop where
  event : db.outboxEvents.get key = some o
  step : OutboxStep key o o'
  allowed : outboxUpdateAllowed key o o' = true
  result : db' = { db with outboxEvents := db.outboxEvents.set key o' }

theorem claimEvent_ok {at' claimExpiresAt : Instant} {ownerId : String} {event : Key × OutboxRow}
    {claim : OutboxClaim} {db db' : Db ρ σ}
    (h : claimEvent at' claimExpiresAt ownerId event db = (.ok claim, db')) :
    ∃ o, OutboxWrite db db' event.1 o (o.claimed ownerId at' claimExpiresAt) ∧
      claim = ⟨at', claimExpiresAt, ownerId, o.deliveryCount + 1, o.payload, o.version + 1⟩ := by
  simp only [claimEvent, bind_ok, demand_ok, require_ok, pure_ok] at h
  obtain ⟨_, t, hu, row, _, ⟨rfl, rfl⟩, n, _, ⟨hn, rfl⟩, _, _, ⟨-, rfl⟩, v, _, ⟨hv, rfl⟩, rfl, rfl⟩ := h
  rcases updateRow_ok hu with ⟨he, -⟩ | ⟨o, ho, -, ha, he, hd⟩
  · cases he
  · cases he
    obtain ⟨rfl, -⟩ := integer_some.mp hn
    obtain ⟨rfl, -⟩ := integer_some.mp hv
    exact ⟨o, ⟨ho, .claim ownerId at' claimExpiresAt, ha, hd⟩, rfl⟩

theorem markDelivered_ok {claim : OutboxClaim} {input : DeliveryInput} {reply : Bool} {db db' : Db ρ σ}
    (h : markDelivered claim input db = (.ok reply, db')) :
    (reply = false ∧ db' = db) ∨
      ∃ o, reply = true ∧ o.heldBy claim = true ∧
        OutboxWrite db db' ⟨claim.message.tenantId, claim.message.eventId⟩ o
          (o.delivered input.deliveredAt input.providerMessageId) := by
  simp only [markDelivered] at h
  split at h
  · simp only [bind_ok, pure_ok] at h
    obtain ⟨result, t, hu, rfl, rfl⟩ := h
    rcases updateRow_ok hu with ⟨rfl, hd⟩ | ⟨o, ho, hw, ha, rfl, hd⟩
    · exact .inl ⟨rfl, hd⟩
    · exact .inr ⟨o, rfl, hw, ho, .deliver claim _ _ rfl hw, ha, hd⟩
  · exact .inl (pure_ok.mp h)

theorem recordFailure_ok {claim : OutboxClaim} {input : DeliveryFailure}
    {reply : OutboxFailureDisposition} {db db' : Db ρ σ}
    (h : recordFailure claim input db = (.ok reply, db')) :
    db' = db ∨
      ∃ o, o.heldBy claim = true ∧
        OutboxWrite db db' ⟨claim.message.tenantId, claim.message.eventId⟩ o
          (o.failedDelivery input.errorCode input.maxAttempts input.nextAttemptAt input.failedAt) := by
  simp only [recordFailure] at h
  split at h
  · simp only [bind_ok, pure_ok] at h
    obtain ⟨result, t, hu, -, rfl⟩ := h
    rcases updateRow_ok hu with ⟨-, hd⟩ | ⟨o, ho, hw, ha, -, hd⟩
    · exact .inl hd
    · exact .inr ⟨o, hw, ho, .fail claim input rfl hw, ha, hd⟩
  · exact .inl (pure_ok.mp h).2

end ReproForge
