import ReproForge.System

/-!
# Publishers

`OutboxPublisher.publishBatch` as a program that each of any number of
publishers runs step by step: it claims a batch, sends the message of each claim
and settles the claim by what became of the send. Between two steps anything
else may happen, and a publisher may stop for good.
-/
namespace ReproForge

open KeyedTable Transactions Transactions.Tx

variable {ρ σ : Type}

/-! ## Everything else only adds to the outbox -/

/-- Rows stay as they are, and a new one is pending and untried. -/
structure OutboxGrows (db db' : Db ρ σ) : Prop where
  kept : ∀ key o, db.outboxEvents.get key = some o → db'.outboxEvents.get key = some o
  added : ∀ key o, db'.outboxEvents.get key = some o → db.outboxEvents.get key = some o ∨
    db.outboxEvents.get key = none ∧ o.status = .pending ∧ o.deliveryCount = 0 ∧ o.checks key = true

namespace OutboxGrows

theorem of_eq {db db' : Db ρ σ} (h : db'.outboxEvents = db.outboxEvents) : OutboxGrows db db' :=
  ⟨fun _ _ ho => by rw [h]; exact ho, fun _ _ ho => .inl (by rw [← h]; exact ho)⟩

theorem refl (db : Db ρ σ) : OutboxGrows db db := of_eq rfl

theorem trans {s t u : Db ρ σ} (hst : OutboxGrows s t) (htu : OutboxGrows t u) : OutboxGrows s u where
  kept := fun key o ho => htu.kept key o (hst.kept key o ho)
  added := by
    intro key o ho
    rcases htu.added key o ho with hold | ⟨hfresh, hnew⟩
    · exact hst.added key o hold
    · refine .inr ⟨?_, hnew⟩
      cases hs : s.outboxEvents.get key with
      | none => rfl
      | some o' =>
        rw [hst.kept key o' hs] at hfresh
        cases hfresh

theorem of_insert {db : Db ρ σ} {key : Key} {message : QueueMessage} {next created updated : Instant}
    (hfresh : db.outboxEvents.get key = none)
    (hchecks : (pendingEvent message next created updated).checks key = true) :
    OutboxGrows db { db with
      outboxEvents := db.outboxEvents.insert key (pendingEvent message next created updated) } where
  kept := fun _ _ ho => Table.get_insert_some ho
  added := by
    intro k o ho
    rcases Table.get_insert_cases hfresh ho with ⟨rfl, rfl⟩ | hold
    · exact .inr ⟨hfresh, rfl, rfl, hchecks⟩
    · exact .inl hold

end OutboxGrows

section growth

variable {α β κ τ : Type} [DecidableEq κ]

theorem grows_pure (a : α) : Within OutboxGrows (pure a : Statement ρ σ α) := within_pure .refl a

theorem grows_read : Within OutboxGrows (read : Statement ρ σ (Db ρ σ)) := within_read .refl

theorem grows_require (b : Bool) (e : DurableError) : Within OutboxGrows (require b e : Statement ρ σ Unit) :=
  within_require .refl b e

theorem grows_demand (o : Option α) (e : DurableError) : Within OutboxGrows (demand o e : Statement ρ σ α) :=
  within_demand .refl o e

theorem grows_bind {x : Statement ρ σ α} {f : α → Statement ρ σ β} (hx : Within OutboxGrows x)
    (hf : ∀ a, Within OutboxGrows (f a)) : Within OutboxGrows (x >>= f) :=
  within_bind .trans hx hf

theorem grows_find [ResultDocument ρ] [RequestDocument σ] (condition : DurableRow ρ σ → Bool) :
    Within OutboxGrows (find condition) := by
  intro db result db' h
  have hdb : db' = db := by simpa [h] using find_db condition db
  rw [hdb]
  exact .refl db

theorem grows_updateRow {rows : Db ρ σ → Table κ τ} {store : Table κ τ → Db ρ σ → Db ρ σ}
    {allowed : κ → τ → τ → Bool} (hstore : ∀ t db, (store t db).outboxEvents = db.outboxEvents) (key : κ)
    (condition : τ → Bool) (assign : τ → τ) :
    Within OutboxGrows (updateRow rows store allowed key condition assign) := by
  intro db result db' h
  rcases updateRow_ok h with ⟨-, hd⟩ | ⟨row, -, -, -, -, hd⟩
  · exact hd ▸ .refl db
  · exact hd ▸ .of_eq (hstore _ db)

theorem grows_updateJob (key : Key) (condition : JobRow → Bool) (assign : JobRow → JobRow) :
    Within OutboxGrows (updateJob key condition assign : Statement ρ σ (Option JobRow)) := by
  refine grows_updateRow ?_ key condition assign
  exact fun _ _ => rfl

theorem grows_updateCase (key : Key) (condition : CaseRow ρ σ → Bool) (assign : CaseRow ρ σ → CaseRow ρ σ) :
    Within OutboxGrows (updateCase key condition assign) := by
  refine grows_updateRow ?_ key condition assign
  exact fun _ _ => rfl

theorem grows_updateQuotas (condition : Key → QuotaRow → Bool) (assign : QuotaRow → QuotaRow) :
    Within OutboxGrows (updateQuotas condition assign : Statement ρ σ Unit) := by
  intro db u db' h
  exact .of_eq (by rw [(updateQuotas_ok h).2])

theorem grows_insertCase (key : Key) (row : CaseRow ρ σ) : Within OutboxGrows (insertCase key row) := by
  intro db u db' h
  exact .of_eq (by rw [(insertCase_ok h).2.2.2])

theorem grows_insertJob (key : Key) (row : JobRow) :
    Within OutboxGrows (insertJob key row : Statement ρ σ Unit) := by
  intro db u db' h
  exact .of_eq (by rw [(insertJob_ok h).2.2.2.2])

theorem grows_insertIdempotencyKey (key : IdempotencyKey) (row : IdempotencyRow) :
    Within OutboxGrows (insertIdempotencyKey key row : Statement ρ σ Unit) := by
  intro db u db' h
  exact .of_eq (by rw [(insertIdempotencyKey_ok h).2.2.2])

theorem grows_insertAuditEvent (key : Key) (row : AuditRow) :
    Within OutboxGrows (insertAuditEvent key row : Statement ρ σ Unit) := by
  intro db u db' h
  exact .of_eq (by rw [(insertAuditEvent_ok h).2])

theorem grows_insertReservation (reservation : QuotaReservation) :
    Within OutboxGrows (insertReservation reservation : Statement ρ σ Bool) := by
  intro db reply db' h
  refine .of_eq ?_
  simp only [insertReservation] at h
  split at h
  · simp only [Prod.mk.injEq] at h
    rw [← h.2]
  · split at h
    · simp at h
    · split at h <;> simp only [Prod.mk.injEq] at h <;> rw [← h.2]

theorem outboxInsertChecks_checks {db : Db ρ σ} {key : Key} {row : OutboxRow}
    (h : outboxInsertChecks db key row = true) : row.checks key = true := by
  simp only [outboxInsertChecks, Bool.and_eq_true] at h
  exact h.1

theorem grows_insertOutboxEvent (key : Key) (message : QueueMessage) (next created updated : Instant) :
    Within OutboxGrows
      (insertOutboxEvent key (pendingEvent message next created updated) : Statement ρ σ Unit) := by
  intro db u db' h
  obtain ⟨hfresh, hallowed, hd⟩ := insertOutboxEvent_ok h
  simp only [outboxInsertAllowed, Bool.and_eq_true] at hallowed
  exact hd ▸ .of_insert hfresh (outboxInsertChecks_checks hallowed.1)

theorem grows_insertOutboxEventOrIgnore (key : Key) (message : QueueMessage) (next created updated : Instant) :
    Within OutboxGrows
      (insertOutboxEventOrIgnore key (pendingEvent message next created updated) : Statement ρ σ Unit) := by
  intro db u db' h
  obtain ⟨hchecks, ⟨-, hd⟩ | ⟨hfresh, -, hd⟩⟩ := insertOutboxEventOrIgnore_ok h
  · exact hd ▸ .refl db
  · exact hd ▸ .of_insert hfresh (outboxInsertChecks_checks hchecks)

theorem grows_returnedVersion (version : Option Nat) :
    Within OutboxGrows (returnedVersion version : Statement ρ σ Nat) := grows_demand _ _

theorem grows_saveCase (key : Key) (condition : CaseRow ρ σ → Bool) (assign : CaseRow ρ σ → CaseRow ρ σ)
    (expected : Nat) (e : DurableError) : Within OutboxGrows (saveCase key condition assign expected e) :=
  grows_bind (grows_updateCase key condition assign) fun _ =>
    grows_bind (grows_returnedVersion _) fun _ => grows_require _ e

theorem grows_saveJob (key : Key) (condition : JobRow → Bool) (assign : JobRow → JobRow) (expected : Nat)
    (e : DurableError) :
    Within OutboxGrows (saveJob key condition assign expected e : Statement ρ σ Unit) :=
  grows_bind (grows_updateJob key condition assign) fun _ =>
    grows_bind (grows_returnedVersion _) fun _ => grows_require _ e

theorem grows_advanceCaseVersion (tenantId caseId : String) (expectedVersion : Nat) (updatedAt : Instant) :
    Within OutboxGrows (advanceCaseVersion tenantId caseId expectedVersion updatedAt : Statement ρ σ Unit) :=
  grows_saveCase _ _ _ _ _

theorem grows_releaseActiveJobQuota (tenantId jobId : String) (at' : Instant) :
    Within OutboxGrows (releaseActiveJobQuota tenantId jobId at' : Statement ρ σ Unit) :=
  grows_updateQuotas _ _

theorem grows_claimLease (input : ClaimInput) :
    Within OutboxGrows (claimLease input : Statement ρ σ (Option JobLease)) := by
  refine grows_bind (grows_require _ _) fun _ => grows_bind grows_read fun db => ?_
  split
  · refine grows_bind (grows_require _ _) fun _ => grows_bind (grows_updateJob _ _ _) fun result => ?_
    split
    · exact grows_pure none
    · exact grows_bind (grows_demand _ _) fun _ => grows_bind (grows_advanceCaseVersion _ _ _ _) fun _ =>
        grows_bind (grows_demand _ _) fun _ => grows_bind (grows_require _ _) fun _ => grows_pure _
  · exact grows_pure none

theorem grows_renewLease (lease : JobLease) (input : RenewInput) :
    Within OutboxGrows (renewLease lease input : Statement ρ σ JobLease) := by
  refine grows_bind (grows_require _ _) fun _ => grows_bind (grows_require _ _) fun _ =>
    grows_bind (grows_updateJob _ _ _) fun result => ?_
  split
  · exact within_fail _
  · exact grows_bind (grows_demand _ _) fun _ => grows_bind (grows_advanceCaseVersion _ _ _ _) fun _ =>
      grows_bind (grows_require _ _) fun _ => grows_pure _

theorem grows_appendAudit (event : AuditEvent) :
    Within OutboxGrows (appendAudit event : Statement ρ σ Unit) :=
  grows_bind (grows_require _ _) fun _ => grows_insertAuditEvent _ _

theorem grows_reserveQuota (limits : QuotaLimits) (reservation : QuotaReservation) :
    Within OutboxGrows (reserveQuota limits reservation : Statement ρ σ Bool) := by
  refine grows_bind (grows_require _ _) fun _ => grows_bind grows_read fun before =>
    grows_bind (grows_updateQuotas _ _) fun _ => grows_bind grows_read fun db => ?_
  dsimp only
  split
  · exact grows_insertReservation reservation
  · exact grows_pure false

theorem grows_appendOutbox (message : QueueMessage) :
    Within OutboxGrows (appendOutbox message : Statement ρ σ Unit) :=
  grows_bind (grows_require _ _) fun _ => grows_bind grows_read fun _ =>
    grows_insertOutboxEvent _ _ _ _ _

end growth

section operations

variable [ResultDocument ρ] [RequestDocument σ]

theorem grows_completeLease (lease : JobLease) (record : DurableReproductionRecord ρ σ) :
    Within OutboxGrows (completeLease lease record) := by
  refine grows_bind (grows_require _ _) fun _ => grows_bind (grows_require _ _) fun _ =>
    grows_bind (grows_require _ _) fun _ => grows_bind grows_read fun db => ?_
  exact grows_bind (grows_require _ _) fun _ => grows_bind (grows_saveCase _ _ _ _ _) fun _ =>
    grows_bind (grows_saveJob _ _ _ _ _) fun _ =>
      grows_bind (grows_releaseActiveJobQuota _ _ _) fun _ => grows_pure _

theorem grows_cancelLeaseInTransaction (lease : JobLease) (at' : Instant) :
    Within OutboxGrows
      (cancelLeaseInTransaction lease at' : Statement ρ σ (DurableReproductionRecord ρ σ)) := by
  refine grows_bind grows_read fun db => grows_bind (grows_returnedVersion _) fun version =>
    grows_bind (grows_require _ _) fun _ => grows_bind ?_ fun found => ?_
  · exact grows_bind (grows_require _ _) fun _ => grows_find _
  · exact grows_bind (grows_demand _ _) fun _ => grows_bind (grows_require _ _) fun _ =>
      grows_bind (grows_demand _ _) fun _ => grows_bind (grows_saveCase _ _ _ _ _) fun _ =>
        grows_bind (grows_saveJob _ _ _ _ _) fun _ =>
          grows_bind (grows_releaseActiveJobQuota _ _ _) fun _ => grows_pure _

theorem grows_cancelLease (lease : JobLease) (at' : Instant) :
    Within OutboxGrows (cancelLease lease at' : Statement ρ σ (DurableReproductionRecord ρ σ)) :=
  grows_bind (grows_require _ _) fun _ => grows_bind (grows_require _ _) fun _ =>
    grows_cancelLeaseInTransaction lease at'

theorem grows_findByJobId (scope : TenantScope) (jobId : String) :
    Within OutboxGrows
      (findByJobId scope jobId : Statement ρ σ (Option (DurableReproductionRecord ρ σ))) :=
  grows_bind (grows_require _ _) fun _ => grows_find _

theorem grows_cancelActiveJob (scope : TenantScope) (jobId : String) (selected : JobRow) (at' : Instant) :
    Within OutboxGrows
      (cancelActiveJob scope jobId selected at' : Statement ρ σ (Option CancellationRequestResult)) := by
  refine grows_bind (grows_findByJobId _ _) fun _ => grows_bind (grows_demand _ _) fun _ =>
    grows_bind (grows_demand _ _) fun _ => grows_bind (grows_require _ _) fun _ =>
      grows_bind (grows_require _ _) fun _ => ?_
  split
  · exact grows_bind (grows_saveJob _ _ _ _ _) fun _ =>
      grows_bind (grows_advanceCaseVersion _ _ _ _) fun _ => grows_pure _
  · exact grows_bind (grows_demand _ _) fun _ => grows_bind (grows_saveCase _ _ _ _ _) fun _ =>
      grows_bind (grows_saveJob _ _ _ _ _) fun _ =>
        grows_bind (grows_releaseActiveJobQuota _ _ _) fun _ => grows_pure _

theorem grows_requestCancellation (scope : TenantScope) (jobId : String) (at' : Instant) :
    Within OutboxGrows
      (requestCancellation scope jobId at' : Statement ρ σ (Option CancellationRequestResult)) := by
  refine grows_bind (grows_require _ _) fun _ => grows_bind (grows_require _ _) fun _ =>
    grows_bind grows_read fun db => ?_
  split
  · exact grows_pure none
  · split
    · exact grows_pure _
    · split
      · exact grows_pure _
      · exact grows_cancelActiveJob _ _ _ _
    · exact grows_cancelActiveJob _ _ _ _
    · exact grows_pure none
    · exact grows_pure none

theorem grows_save (record : DurableReproductionRecord ρ σ) (expectedVersion : Nat) :
    Within OutboxGrows (save record expectedVersion) :=
  grows_bind (grows_require _ _) fun _ => grows_bind (grows_require _ _) fun _ =>
    grows_bind (grows_require _ _) fun _ => grows_bind (grows_saveCase _ _ _ _ _) fun _ =>
      grows_bind (grows_saveJob _ _ _ _ _) fun _ => grows_pure _

theorem grows_reserve (record : DurableReproductionRecord ρ σ) : Within OutboxGrows (reserve record) := by
  refine grows_bind (grows_require _ _) fun _ => grows_bind grows_read fun db =>
    grows_bind (grows_require _ _) fun _ => grows_bind ?_ fun found => ?_
  · exact grows_bind (grows_require _ _) fun _ => grows_find _
  · split
    · exact grows_pure _
    · exact grows_bind (grows_insertCase _ _) fun _ => grows_bind (grows_insertJob _ _) fun _ =>
        grows_bind (grows_insertIdempotencyKey _ _) fun _ => grows_pure _

theorem grows_reserveDurableStart (limits : QuotaLimits) (input : DurableStartInput ρ σ) :
    Within OutboxGrows (reserveDurableStart limits input) := by
  refine grows_bind ?_ fun _ => grows_bind (grows_reserve _) fun reservation => ?_
  · exact grows_bind (grows_require _ _) fun _ => grows_require _ _
  · split
    · exact grows_bind (grows_reserveQuota _ _) fun _ => grows_bind (grows_require _ _) fun _ =>
        grows_bind (grows_appendAudit _) fun _ => grows_bind (grows_appendOutbox _) fun _ => grows_pure _
    · exact grows_bind (grows_require _ _) fun _ => grows_pure _

variable [Sha256]

theorem grows_failLease (lease : JobLease) (failure : LeaseFailure) :
    Within OutboxGrows (failLease lease failure : Statement ρ σ LeaseFailureDisposition) := by
  refine grows_bind (grows_require _ _) fun _ => grows_bind (grows_require _ _) fun _ =>
    grows_bind grows_read fun db => grows_bind (grows_demand _ _) fun row => ?_
  split
  · exact grows_bind (grows_cancelLeaseInTransaction _ _) fun _ => grows_pure _
  · refine grows_bind (grows_demand _ _) fun _ => grows_bind (grows_demand _ _) fun _ =>
      grows_bind (grows_demand _ _) fun _ => grows_bind (grows_saveJob _ _ _ _ _) fun _ =>
        grows_bind (grows_advanceCaseVersion _ _ _ _) fun _ => ?_
    split
    · exact grows_bind (grows_require _ _) fun _ =>
        grows_bind (grows_insertOutboxEventOrIgnore _ _ _ _ _) fun _ => grows_pure _
    · exact grows_bind (grows_releaseActiveJobQuota _ _ _) fun _ => grows_pure _

theorem grows_recoverLease (at' : Instant) (row : Key × JobRow) :
    Within OutboxGrows (recoverLease at' row : Statement ρ σ LeaseFailureDisposition) :=
  grows_bind (grows_demand _ _) fun _ => grows_bind (grows_demand _ _) fun _ =>
    grows_bind (grows_demand _ _) fun _ => grows_bind (grows_demand _ _) fun _ =>
      grows_bind (grows_require _ _) fun _ => grows_bind (grows_failLease _ _) fun _ =>
        grows_bind (grows_appendAudit _) fun _ => grows_pure _

theorem grows_recoverExpiredLeases (input : RecoverInput) (locked : List Key) :
    Within OutboxGrows (recoverExpiredLeases input locked : Statement ρ σ LeaseRecoverySummary) :=
  grows_bind (grows_require _ _) fun _ => grows_bind grows_read fun _ =>
    grows_bind (within_forEach .refl .trans (grows_recoverLease input.at') _) fun _ => grows_pure _

/-- The operations that only publishers issue. -/
def Op.publishes : Op ρ σ → Bool
  | .claimPending _ _ | .markDelivered _ _ | .recordFailure _ _ => true
  | _ => false

def Event.publishes : Event ρ σ → Bool
  | .call _ op => op.publishes
  | _ => false

theorem grows_statement {op : Op ρ σ} (hop : op.publishes = false) : Within OutboxGrows op.statement := by
  cases op with
  | start limits input => exact grows_bind (grows_reserveDurableStart limits input) fun _ => grows_pure _
  | save record expectedVersion => exact grows_bind (grows_save record expectedVersion) fun _ => grows_pure _
  | claimLease input => exact grows_bind (grows_claimLease input) fun _ => grows_pure _
  | renewLease lease input => exact grows_bind (grows_renewLease lease input) fun _ => grows_pure _
  | completeLease lease record => exact grows_bind (grows_completeLease lease record) fun _ => grows_pure _
  | failLease lease failure => exact grows_bind (grows_failLease lease failure) fun _ => grows_pure _
  | releaseLease lease input =>
    exact grows_bind (grows_require _ _) fun _ => grows_bind (grows_failLease lease _) fun _ => grows_pure _
  | recoverExpiredLeases input locked =>
    exact grows_bind (grows_recoverExpiredLeases input locked) fun _ => grows_pure _
  | requestCancellation scope jobId at' =>
    exact grows_bind (grows_requestCancellation scope jobId at') fun _ => grows_pure _
  | cancelLease lease at' => exact grows_bind (grows_cancelLease lease at') fun _ => grows_pure _
  | claimPending input locked => cases hop
  | markDelivered claim input => cases hop
  | recordFailure claim input => cases hop

theorem step_outboxGrows {event : Event ρ σ} (hevent : event.publishes = false) (db : Db ρ σ) :
    OutboxGrows db (step event db) := by
  cases event with
  | call attempts op =>
    rcases step_call attempts op db with hd | ⟨u, hu⟩
    · rw [hd]
      exact .refl db
    · exact grows_statement hevent db u _ hu
  | clock now => exact .of_eq rfl
  | tenants t => exact .of_eq rfl
  | artifacts t => exact .of_eq rfl
  | deletionRequests t => exact .of_eq rfl

end operations

/-! ## The program of a publisher -/

structure OutboxPublishSummary where
  claimed : Nat
  conflicted : Nat
  dead : Nat
  delivered : Nat
  retryScheduled : Nat
  deriving DecidableEq, Repr

def OutboxPublishSummary.count (summary : OutboxPublishSummary) :
    OutboxFailureDisposition → OutboxPublishSummary
  | .dead => { summary with dead := summary.dead + 1 }
  | .retry => { summary with retryScheduled := summary.retryScheduled + 1 }
  | .lost => { summary with conflicted := summary.conflicted + 1 }

/-- The dependencies that the constructor accepts. -/
structure PublisherPolicy where
  claimSeconds : Int
  maxAttempts : Nat
  maxBatchSize : Nat
  ownerId : String
  claimSeconds_range : 1 ≤ claimSeconds ∧ claimSeconds ≤ 3600
  maxAttempts_range : 1 ≤ maxAttempts ∧ maxAttempts ≤ 32
  maxBatchSize_range : 1 ≤ maxBatchSize ∧ maxBatchSize ≤ 1000

def delaySeconds (attempt : Nat) : Nat := min 300 (5 * 2 ^ (attempt - 1))

/-- `new Date(…).toISOString()` throws outside the range of a date. -/
def nextAttemptAt (claim : OutboxClaim) (failedAt : Instant) : Option Instant :=
  let next := failedAt + delaySeconds claim.deliveryAttempt * 1000
  if -8640000000000000 ≤ next ∧ next ≤ 8640000000000000 then some next else none

/-- Where a publisher stands in `publishBatch`. -/
inductive Publisher where
  /-- Not in a call; the summary is what the last call returned. -/
  | idle : Option OutboxPublishSummary → Publisher
  | sending : OutboxPublishSummary → OutboxClaim → List OutboxClaim → Publisher
  /-- The send returned a message id. -/
  | marking : OutboxPublishSummary → OutboxClaim → Option String → List OutboxClaim → Publisher
  /-- The send or the report of its delivery threw. -/
  | failing : OutboxPublishSummary → OutboxClaim → List OutboxClaim → Publisher
  deriving DecidableEq, Repr

namespace Publisher

/-- The head of the loop over the claims. -/
def loop (summary : OutboxPublishSummary) : List OutboxClaim → Publisher
  | [] => .idle (some summary)
  | claim :: rest => .sending summary claim rest

/-- The claims that the publisher has not settled. -/
def claims : Publisher → List OutboxClaim
  | .idle _ => []
  | .sending _ claim rest | .marking _ claim _ rest | .failing _ claim rest => claim :: rest

/-- The claim that the next statement of the publisher is about. -/
def settling : Publisher → Option OutboxClaim
  | .marking _ claim _ _ | .failing _ claim _ => some claim
  | _ => none

@[simp] theorem claims_loop (summary : OutboxPublishSummary) (claims : List OutboxClaim) :
    (loop summary claims).claims = claims := by
  cases claims <;> rfl

theorem settling_loop (summary : OutboxPublishSummary) (claims : List OutboxClaim) :
    (loop summary claims).settling = none := by
  cases claims <;> rfl

end Publisher

/-- The database, the publishers, and the messages whose send returned. -/
structure Publishing (ρ σ : Type) where
  db : Db ρ σ
  publishers : Nat → Publisher
  sent : List QueueMessage

def Publishing.initial (now : Instant) (tenants : Table String TenantRow) : Publishing ρ σ :=
  ⟨Db.initial now tenants, fun _ => .idle none, []⟩

variable [ResultDocument ρ] [RequestDocument σ] [Sha256]

/-- One step of the system, with all that the clock, the server and the queue decide in it. -/
inductive PublishingAction (ρ σ : Type) [ResultDocument ρ] [RequestDocument σ] [Sha256] where
  | event (event : Event ρ σ) : event.publishes = false → PublishingAction ρ σ
  | publish (n : Nat) : List Attempt → Instant → List Key → PublishingAction ρ σ
  /-- The queue returns a message id or throws. -/
  | send (n : Nat) : Option (Option String) → PublishingAction ρ σ
  | settle (n : Nat) : Attempt → Instant → PublishingAction ρ σ
  | crash (n : Nat) : PublishingAction ρ σ

namespace Publishing

def withPublisher (w : Publishing ρ σ) (n : Nat) (p : Publisher) : Publishing ρ σ :=
  { w with publishers := Function.update w.publishers n p }

def publish (policy : PublisherPolicy) (n : Nat) (attempts : List Attempt) (claimedAt : Instant)
    (locked : List Key) (w : Publishing ρ σ) : Publishing ρ σ :=
  match runSerializableTransaction 3 attempts
      (claimPending ⟨claimedAt, policy.claimSeconds, policy.maxBatchSize, policy.ownerId⟩ locked) w.db with
  | (.ok claims, db) => { w with db := db }.withPublisher n (.loop ⟨claims.length, 0, 0, 0, 0⟩ claims)
  | (.error _, db) => { w with db := db }.withPublisher n (.idle none)

def markDelivered (n : Nat) (summary : OutboxPublishSummary) (claim : OutboxClaim)
    (messageId : Option String) (rest : List OutboxClaim) (attempt : Attempt) (deliveredAt : Instant)
    (w : Publishing ρ σ) : Publishing ρ σ :=
  match attempt.transaction (ReproForge.markDelivered claim ⟨deliveredAt, messageId⟩) w.db with
  | (.ok true, db) =>
    { w with db := db }.withPublisher n (.loop { summary with delivered := summary.delivered + 1 } rest)
  | (.ok false, db) =>
    { w with db := db }.withPublisher n (.loop { summary with conflicted := summary.conflicted + 1 } rest)
  | (.error _, db) => { w with db := db }.withPublisher n (.failing summary claim rest)

def recordFailure (policy : PublisherPolicy) (n : Nat) (summary : OutboxPublishSummary) (claim : OutboxClaim)
    (rest : List OutboxClaim) (attempt : Attempt) (failedAt : Instant) (w : Publishing ρ σ) :
    Publishing ρ σ :=
  match nextAttemptAt claim failedAt with
  | none => w.withPublisher n (.idle none)
  | some next =>
    match attempt.transaction
        (ReproForge.recordFailure claim ⟨"QUEUE_PUBLISH_FAILED", failedAt, policy.maxAttempts, next⟩) w.db with
    | (.ok disposition, db) => { w with db := db }.withPublisher n (.loop (summary.count disposition) rest)
    | (.error _, db) => { w with db := db }.withPublisher n (.idle none)

/-- An action that its publisher is not ready for does nothing. -/
def step (policy : Nat → PublisherPolicy) : PublishingAction ρ σ → Publishing ρ σ → Publishing ρ σ
  | .event event _, w => { w with db := ReproForge.step event w.db }
  | .publish n attempts claimedAt locked, w =>
    match w.publishers n with
    | .idle _ => w.publish (policy n) n attempts claimedAt locked
    | _ => w
  | .send n reply, w =>
    match w.publishers n, reply with
    | .sending summary claim rest, some messageId =>
      { w with sent := claim.message :: w.sent }.withPublisher n (.marking summary claim messageId rest)
    | .sending summary claim rest, none => w.withPublisher n (.failing summary claim rest)
    | _, _ => w
  | .settle n attempt at', w =>
    match w.publishers n with
    | .marking summary claim messageId rest => w.markDelivered n summary claim messageId rest attempt at'
    | .failing summary claim rest => w.recordFailure (policy n) n summary claim rest attempt at'
    | _ => w
  | .crash n, w => w.withPublisher n (.idle none)

end Publishing

end ReproForge
