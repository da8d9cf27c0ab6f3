import ReproForge.Outbox
import ReproForge.Runs

/-!
# The durable system

Every operation of the durable repositories as one event of a transition system
over the database, in any order, with any arguments and any fate of its
transaction. `Write` lists the changes that an event can commit, and
`step_writes` shows that an event commits a sequence of such changes.
-/
namespace ReproForge

open KeyedTable Transactions Transactions.Tx Relation

variable {ρ σ : Type} [ResultDocument ρ] [RequestDocument σ] [Sha256]

/-! ## What a start that creates a reproduction writes -/

/-- The quota ledger after the expiry pass of `reserveQuota`. -/
def expiredLedger (db : Db ρ σ) (reservation : QuotaReservation) : Table Key QuotaRow :=
  db.quotaLedger.update (expirable reservation.tenantId reservation.resource db.now)
    (fun _ => QuotaRow.expired db.now)

def reservationKey (reservation : QuotaReservation) : Key := ⟨reservation.tenantId, reservation.reservationId⟩
def messageKey (message : QueueMessage) : Key := ⟨message.tenantId, message.eventId⟩
def auditKey (event : AuditEvent) : Key := ⟨event.tenantId, event.eventId⟩

def auditRow (event : AuditEvent) : AuditRow :=
  ⟨event.actorId, event.action, event.targetType, event.targetId, event.outcome, event.metadata,
    event.occurredAt⟩

structure StartWrite (limits : QuotaLimits) (input : DurableStartInput ρ σ) (db db' : Db ρ σ) : Prop where
  schemas : input.schemas = true
  aligned : input.aligned = true
  valid : validateRecord input.record true = true
  active : tenantActive db input.record.tenantId = true
  idempotencyKey : db.idempotencyKeys.get (recordKey input.record) = none
  case : db.cases.get (recordCaseKey input.record) = none
  job : db.jobs.get (recordJobKey input.record) = none
  caseChecks : (newCase input.record db.now).checks (recordCaseKey input.record) = true
  jobChecks : (newJob input.record db.now).checks (recordJobKey input.record) = true
  cancellation : cancellationTimestamps (newJob input.record db.now) = true
  idempotencyChecks : (newIdempotencyKey input.record db.now).checks (recordKey input.record) = true
  usage : quotaUsage (expiredLedger db input.quotaReservation) input.quotaReservation.tenantId
    input.quotaReservation.resource db.now + input.quotaReservation.amount ≤
      limits.limit input.quotaReservation.resource
  reservation : db.quotaLedger.get (reservationKey input.quotaReservation) = none
  reservationChecks :
    (newReservation input.quotaReservation input.record.snapshot.job.createdAt db.now).checks
      (reservationKey input.quotaReservation) = true
  audit : db.auditEvents.get (auditKey input.auditEvent) = none
  outbox : db.outboxEvents.get (messageKey input.outboxMessage) = none
  outboxChecks : outboxInsertChecks db (messageKey input.outboxMessage)
    (pendingEvent input.outboxMessage db.now db.now db.now) = true
  result : db' = { db with
    cases := db.cases.insert (recordCaseKey input.record) (newCase input.record db.now)
    jobs := db.jobs.insert (recordJobKey input.record) (newJob input.record db.now)
    idempotencyKeys :=
      db.idempotencyKeys.insert (recordKey input.record) (newIdempotencyKey input.record db.now)
    quotaLedger := (expiredLedger db input.quotaReservation).insert (reservationKey input.quotaReservation)
      (newReservation input.quotaReservation input.record.snapshot.job.createdAt db.now)
    auditEvents := db.auditEvents.insert (auditKey input.auditEvent) (auditRow input.auditEvent)
    outboxEvents := db.outboxEvents.insert (messageKey input.outboxMessage)
      (pendingEvent input.outboxMessage db.now db.now db.now) }

omit [Sha256] in
theorem findByIdempotencyKey_some {record found : DurableReproductionRecord ρ σ} {db db' : Db ρ σ}
    (h : findByIdempotencyKey (recordScope record) record.idempotencyKey db = (.ok (some found), db')) :
    db' = db ∧ ∃ row, Joined db row ∧ row.key = recordKey record ∧ rowToRecord row = some found := by
  simp only [findByIdempotencyKey, bind_ok, require_ok] at h
  obtain ⟨_, _, ⟨-, rfl⟩, h⟩ := h
  obtain ⟨hd, row, hrow, hw, hr⟩ := find_some h
  simp only [Bool.and_eq_true, beq_iff_eq] at hw
  obtain ⟨⟨htenant, hcaller⟩, hkey⟩ := hw
  refine ⟨hd, row, hrow, ?_, hr⟩
  have he : row.key = ⟨row.key.tenantId, row.key.callerId, row.key.idempotencyKey⟩ := rfl
  rw [he, htenant, hcaller, hkey]
  rfl

omit [ResultDocument ρ] [RequestDocument σ] [Sha256] in
theorem reserveQuota_true {limits : QuotaLimits} {reservation : QuotaReservation} {db db' : Db ρ σ}
    (h : reserveQuota limits reservation db = (.ok true, db')) :
    ∃ j, db.jobs.get ⟨reservation.tenantId, reservation.jobId⟩ = some j ∧
      quotaUsage (expiredLedger db reservation) reservation.tenantId reservation.resource db.now +
        reservation.amount ≤ limits.limit reservation.resource ∧
      db.quotaLedger.get (reservationKey reservation) = none ∧
      (newReservation reservation j.createdAt db.now).checks (reservationKey reservation) = true ∧
      db' = { db with
        quotaLedger := (expiredLedger db reservation).insert (reservationKey reservation)
          (newReservation reservation j.createdAt db.now) } := by
  simp only [reserveQuota, bind_ok, require_ok, read_ok] at h
  obtain ⟨_, _, ⟨-, rfl⟩, _, _, ⟨rfl, rfl⟩, _, t, hexp, _, _, ⟨rfl, rfl⟩, h⟩ := h
  have ht := (updateQuotas_ok hexp).2
  subst ht
  split at h
  · rename_i hused
    simp only [Bool.and_eq_true, decide_eq_true_eq] at hused
    simp only [insertReservation] at h
    split at h
    · simp at h
    · rename_i j hj
      have hj := (Option.filter_eq_some_iff.mp hj).1
      split at h
      · simp at h
      · rename_i hchecks
        split at h
        · simp at h
        · rename_i hfresh
          simp only [Prod.mk.injEq, true_and] at h
          refine ⟨j, hj, hused.2, ?_, by simpa [reservationKey] using hchecks, h.symm⟩
          simpa [reservationKey] using hfresh
  · exact absurd (pure_ok.mp h).1 (by simp)

omit [Sha256] in
/-- A start that succeeded replayed a stored reproduction or created a new one. -/
theorem reserveDurableStart_ok {limits : QuotaLimits} {input : DurableStartInput ρ σ}
    {reply : DurableReservationResult ρ σ} {db db' : Db ρ σ}
    (h : reserveDurableStart limits input db = (.ok reply, db')) :
    (reply.created = false ∧ db' = db ∧ reply.record.commandHash = input.record.commandHash ∧
      ∃ row, Joined db row ∧ row.key = recordKey input.record ∧ rowToRecord row = some reply.record) ∨
    (reply = ⟨true, input.record⟩ ∧ StartWrite limits input db db') := by
  simp only [reserveDurableStart, validateStartInput, reserve, reserveInTransaction, bind_ok, require_ok,
    read_ok] at h
  obtain ⟨_, t₀, ⟨_, _, ⟨hschemas, rfl⟩, haligned, rfl⟩, reservation, t,
    ⟨_, _, ⟨hvalid, rfl⟩, _, _, ⟨rfl, rfl⟩, _, _, ⟨hactive, rfl⟩, found, _, hfind, hres⟩, h⟩ := h
  cases found with
  | some existing =>
    obtain ⟨rfl, row, hrow, hkey, hrecord⟩ := findByIdempotencyKey_some hfind
    obtain ⟨rfl, rfl⟩ := pure_ok.mp hres
    simp only [Bool.false_eq_true, if_false, bind_ok, require_ok, pure_ok, beq_iff_eq] at h
    obtain ⟨_, _, ⟨hhash, rfl⟩, rfl, rfl⟩ := h
    exact .inl ⟨rfl, rfl, hhash, row, hrow, hkey, hrecord⟩
  | none =>
    simp only [findByIdempotencyKey, bind_ok, require_ok] at hfind
    obtain ⟨_, _, ⟨-, rfl⟩, hfind⟩ := hfind
    obtain ⟨rfl, -⟩ := find_none hfind
    simp only [bind_ok, pure_ok] at hres
    obtain ⟨_, t₁, hcase, _, t₂, hjob, _, t₃, hidem, rfl, rfl⟩ := hres
    obtain ⟨hcaseFresh, -, hcaseChecks, ht⟩ := insertCase_ok hcase
    subst ht
    obtain ⟨hjobFresh, -, hjobChecks, hcancel, ht⟩ := insertJob_ok hjob
    subst ht
    obtain ⟨hidemFresh, -, hidemChecks, ht⟩ := insertIdempotencyKey_ok hidem
    subst ht
    simp only [if_true, appendAudit, appendOutbox, bind_ok, require_ok, read_ok, pure_ok] at h
    obtain ⟨reserved, t₄, hquota, _, _, ⟨rfl, rfl⟩, _, t₅, ⟨_, _, ⟨-, rfl⟩, haudit⟩, _, t₆,
      ⟨_, _, ⟨-, rfl⟩, _, _, ⟨rfl, rfl⟩, houtbox⟩, rfl, rfl⟩ := h
    obtain ⟨j, hj, husage, hresFresh, hresChecks, ht⟩ := reserveQuota_true hquota
    subst ht
    obtain ⟨hauditFresh, ht⟩ := insertAuditEvent_ok haudit
    subst ht
    obtain ⟨houtboxFresh, houtboxAllowed, ht⟩ := insertOutboxEvent_ok houtbox
    subst ht
    have halignment := haligned
    simp only [DurableStartInput.aligned, Bool.and_eq_true, beq_iff_eq] at halignment
    have hjobKey : (⟨input.quotaReservation.tenantId, input.quotaReservation.jobId⟩ : Key) =
        recordJobKey input.record := by
      rw [halignment.1.1.2, halignment.2]
      rfl
    rw [hjobKey, Table.get_insert_self hjobFresh] at hj
    obtain rfl := Option.some.inj hj
    simp only [outboxInsertAllowed, Bool.and_eq_true] at houtboxAllowed
    refine .inr ⟨rfl, ?_⟩
    exact {
      schemas := hschemas
      aligned := haligned
      valid := hvalid
      active := hactive
      idempotencyKey := hidemFresh
      case := hcaseFresh
      job := hjobFresh
      caseChecks := hcaseChecks
      jobChecks := hjobChecks
      cancellation := hcancel
      idempotencyChecks := hidemChecks
      usage := husage
      reservation := hresFresh
      reservationChecks := hresChecks
      audit := hauditFresh
      outbox := houtboxFresh
      outboxChecks := houtboxAllowed.1
      result := rfl }

/-! ## Events -/

/-- One operation with its arguments. -/
inductive Op (ρ σ : Type) where
  | start : QuotaLimits → DurableStartInput ρ σ → Op ρ σ
  | save : DurableReproductionRecord ρ σ → Nat → Op ρ σ
  | claimLease : ClaimInput → Op ρ σ
  | renewLease : JobLease → RenewInput → Op ρ σ
  | completeLease : JobLease → DurableReproductionRecord ρ σ → Op ρ σ
  | failLease : JobLease → LeaseFailure → Op ρ σ
  | releaseLease : JobLease → ReleaseInput → Op ρ σ
  | recoverExpiredLeases : RecoverInput → List Key → Op ρ σ
  | requestCancellation : TenantScope → String → Instant → Op ρ σ
  | cancelLease : JobLease → Instant → Op ρ σ
  | claimPending : ClaimPendingInput → List Key → Op ρ σ
  | markDelivered : OutboxClaim → DeliveryInput → Op ρ σ
  | recordFailure : OutboxClaim → DeliveryFailure → Op ρ σ

/-- The transaction of an operation, its reply left out. -/
def Op.statement : Op ρ σ → Statement ρ σ Unit
  | .start limits input => do let _ ← reserveDurableStart limits input; pure ()
  | .save record expectedVersion => do let _ ← ReproForge.save record expectedVersion; pure ()
  | .claimLease input => do let _ ← ReproForge.claimLease input; pure ()
  | .renewLease lease input => do let _ ← ReproForge.renewLease lease input; pure ()
  | .completeLease lease record => do let _ ← ReproForge.completeLease lease record; pure ()
  | .failLease lease failure => do let _ ← ReproForge.failLease lease failure; pure ()
  | .releaseLease lease input => ReproForge.releaseLease lease input
  | .recoverExpiredLeases input locked => do
    let _ ← ReproForge.recoverExpiredLeases input locked
    pure ()
  | .requestCancellation scope jobId at' => do
    let _ ← ReproForge.requestCancellation scope jobId at'
    pure ()
  | .cancelLease lease at' => do let _ ← ReproForge.cancelLease lease at'; pure ()
  | .claimPending input locked => do let _ ← ReproForge.claimPending input locked; pure ()
  | .markDelivered claim input => do let _ ← ReproForge.markDelivered claim input; pure ()
  | .recordFailure claim input => do let _ ← ReproForge.recordFailure claim input; pure ()

/-- An operation together with the fate of its attempts, or a change made by
another part of the system. The clock of the server is set to any value, since
transactions need not be serialized in the order in which they started. -/
inductive Event (ρ σ : Type) where
  | call : List Attempt → Op ρ σ → Event ρ σ
  | clock : Instant → Event ρ σ
  | tenants : Table String TenantRow → Event ρ σ
  | artifacts : Table Key ArtifactRow → Event ρ σ
  | deletionRequests : Table Key DeletionRow → Event ρ σ

def step : Event ρ σ → Db ρ σ → Db ρ σ
  | .call attempts op, db => (runSerializableTransaction 3 attempts op.statement db).2
  | .clock now, db => { db with now := now }
  | .tenants t, db => { db with tenants := t }
  | .artifacts t, db => { db with artifacts := t }
  | .deletionRequests t, db => { db with deletionRequests := t }

/-! ## What an event can commit -/

/-- The records that a caller hands in to be stored. -/
def Event.edits : Event ρ σ → DurableReproductionRecord ρ σ → Prop
  | .call _ (.save record _), r => r = record
  | .call _ (.completeLease _ record), r => r = record
  | _, _ => False

/-- The deliveries that a publisher reports. -/
def Event.delivers : Event ρ σ → OutboxClaim → Prop
  | .call _ (.markDelivered claim _), c => c = claim
  | _, _ => False

/-- What becomes of the case document: the fixed part stays, or a caller's record replaces it. -/
inductive DocumentSource (event : Event ρ σ) (key caseKey : Key) (j : JobRow) (c c' : CaseRow ρ σ) : Prop where
  | kept : caseKey.id = j.caseId → SameDomain c c' → DocumentSource event key caseKey j c c'
  | edited (record : DurableReproductionRecord ρ σ) : event.edits record → key = recordJobKey record →
      caseKey = recordCaseKey record → c' = c.rewritten record → DocumentSource event key caseKey j c c'

/-- An event of the outbox becomes delivered only on the report of a publisher that holds it. -/
def DeliverySource (event : Event ρ σ) (key : Key) (o o' : OutboxRow) : Prop :=
  o'.status = .delivered →
    ∃ claim, event.delivers claim ∧ key = ⟨claim.message.tenantId, claim.message.eventId⟩ ∧ o'.payload = o.payload

/-- A change that an event commits without creating a reproduction. -/
inductive Change (event : Event ρ σ) (db db' : Db ρ σ) : Prop where
  | job {key caseKey j j' c c'} : JobWrite db db' key caseKey j j' c c' →
      DocumentSource event key caseKey j c c' → Change event db db'
  | audit (key : Key) (row : AuditRow) :
      db' = { db with auditEvents := db.auditEvents.insert key row } → Change event db db'
  | outbox {key o o'} : OutboxWrite db db' key o o' → DeliverySource event key o o' → Change event db db'
  | environment (now : Instant) (tenants : Table String TenantRow) (artifacts : Table Key ArtifactRow)
      (deletionRequests : Table Key DeletionRow) :
      db' = { db with
        now := now
        tenants := tenants
        artifacts := artifacts
        deletionRequests := deletionRequests } →
      (tenants = db.tenants ∨ event = .tenants tenants) ∧
        (artifacts = db.artifacts ∨ event = .artifacts artifacts) ∧
        (deletionRequests = db.deletionRequests ∨ event = .deletionRequests deletionRequests) → Change event db db'

inductive Write (db db' : Db ρ σ) : Prop where
  | change {event} : Change event db db' → Write db db'
  | start {limits input} : StartWrite limits input db db' → Write db db'

variable {event : Event ρ σ}

omit [ResultDocument ρ] [RequestDocument σ] [Sha256] in
theorem documentSource_advanced {key caseKey : Key} {j : JobRow} {c : CaseRow ρ σ} {at' : Instant}
    (h : caseKey.id = j.caseId) : DocumentSource event key caseKey j c (c.advanced at') :=
  .kept h ⟨rfl, rfl, rfl⟩

theorem FailWrite.change {lease : JobLease} {failure : LeaseFailure} {db db' : Db ρ σ}
    {disposition : LeaseFailureDisposition} (h : FailWrite lease failure db db' disposition) :
    Change event db db' := by
  cases h with
  | cancelled _ hdomain hw => exact .job hw (.kept rfl hdomain)
  | requeued _ hw => exact .job hw (documentSource_advanced rfl)
  | exhausted _ hw => exact .job hw (documentSource_advanced rfl)

theorem recoverLease_ok {at' : Instant} {row : Key × JobRow} {disposition : LeaseFailureDisposition}
    {db db' : Db ρ σ} (h : recoverLease at' row db = (.ok disposition, db')) :
    ∃ lease db₁ key audit, FailWrite lease ⟨at', "LEASE_EXPIRED", at', true⟩ db db₁ disposition ∧
      db₁.auditEvents.get key = none ∧
      db' = { db₁ with auditEvents := db₁.auditEvents.insert key audit } := by
  simp only [recoverLease, appendAudit, bind_ok, demand_ok, require_ok, pure_ok] at h
  obtain ⟨acquiredAt, _, ⟨-, rfl⟩, expiresAt, _, ⟨-, rfl⟩, ownerId, _, ⟨-, rfl⟩, attempt, _, ⟨-, rfl⟩, _, _,
    ⟨-, rfl⟩, disposition', db₁, hfail, _, _, ⟨_, _, ⟨-, rfl⟩, haudit⟩, rfl, rfl⟩ := h
  obtain ⟨hfresh, hd⟩ := insertAuditEvent_ok haudit
  exact ⟨_, db₁, _, _, failLease_ok hfail, hfresh, hd⟩

theorem recoverExpiredLeases_changes {input : RecoverInput} {locked : List Key}
    {summary : LeaseRecoverySummary} {db db' : Db ρ σ}
    (h : recoverExpiredLeases input locked db = (.ok summary, db')) : ReflTransGen (Change event) db db' := by
  simp only [recoverExpiredLeases, bind_ok, require_ok, read_ok, pure_ok] at h
  obtain ⟨_, _, ⟨-, rfl⟩, _, _, ⟨rfl, rfl⟩, dispositions, t, hloop, -, rfl⟩ := h
  refine forEach_steps ?_ hloop
  intro row disposition s s' hrow
  obtain ⟨lease, s₁, key, audit, hfail, -, hd⟩ := recoverLease_ok hrow
  exact (ReflTransGen.single hfail.change).tail (.audit key audit hd)

theorem releaseLease_ok {lease : JobLease} {input : ReleaseInput} {db db' : Db ρ σ} {u : Unit}
    (h : releaseLease lease input db = (.ok u, db')) :
    ∃ disposition, FailWrite lease ⟨input.at', "LEASE_RELEASED", input.nextAttemptAt, true⟩ db db'
      disposition := by
  simp only [releaseLease, bind_ok, require_ok, pure_ok] at h
  obtain ⟨_, _, ⟨-, rfl⟩, disposition, t, hfail, -, rfl⟩ := h
  exact ⟨disposition, failLease_ok hfail⟩

theorem claimPending_changes {input : ClaimPendingInput} {locked : List Key} {claims : List OutboxClaim}
    {db db' : Db ρ σ} (h : claimPending input locked db = (.ok claims, db')) :
    ReflTransGen (Change event) db db' := by
  simp only [claimPending] at h
  split at h
  · simp only [bind_ok, require_ok, read_ok] at h
    obtain ⟨_, _, ⟨-, rfl⟩, _, _, ⟨rfl, rfl⟩, hloop⟩ := h
    refine forEach_steps ?_ hloop
    intro event claim s s' hevent
    obtain ⟨o, hw, -⟩ := claimEvent_ok hevent
    exact .single (.outbox hw (fun hs => by simp [OutboxRow.claimed] at hs))
  · obtain ⟨-, rfl⟩ := pure_ok.mp h
    exact .refl

omit [ResultDocument ρ] [RequestDocument σ] [Sha256] in
/-- Dropping the reply of an operation keeps its effect. -/
theorem discard_ok {α : Type} {x : Statement ρ σ α} {db db' : Db ρ σ} {u : Unit}
    (h : (do let _ ← x; pure () : Statement ρ σ Unit) db = (.ok u, db')) :
    ∃ reply, x db = (.ok reply, db') := by
  obtain ⟨reply, t, hx, hp⟩ := bind_ok.mp h
  obtain ⟨-, rfl⟩ := pure_ok.mp hp
  exact ⟨reply, hx⟩

def Op.isStart : Op ρ σ → Bool
  | .start _ _ => true
  | _ => false

/-- Every operation but a start commits a sequence of changes. -/
theorem Op.statement_changes {attempts : List Attempt} {op : Op ρ σ} {db db' : Db ρ σ} {u : Unit} (hop : op.isStart = false)
    (h : op.statement db = (.ok u, db')) : ReflTransGen (Change (.call attempts op)) db db' := by
  cases op with
  | start limits input => simp [Op.isStart] at hop
  | save record expectedVersion =>
    obtain ⟨reply, hr⟩ := discard_ok h
    obtain ⟨-, j, c, hw⟩ := save_ok hr
    exact .single (.job hw (.edited record rfl rfl rfl rfl))
  | claimLease input =>
    obtain ⟨reply, hr⟩ := discard_ok h
    rcases claimLease_ok hr with ⟨-, rfl⟩ | ⟨j, c, -, hw⟩
    · exact .refl
    · exact .single (.job hw (documentSource_advanced rfl))
  | renewLease lease input =>
    obtain ⟨reply, hr⟩ := discard_ok h
    obtain ⟨-, j, c, -, hw⟩ := renewLease_ok hr
    exact .single (.job hw (documentSource_advanced rfl))
  | completeLease lease record =>
    obtain ⟨reply, hr⟩ := discard_ok h
    obtain ⟨-, j, c, -, hkey, hcaseKey, hw⟩ := completeLease_ok hr
    exact .single (.job hw (.edited record rfl hkey hcaseKey rfl))
  | failLease lease failure =>
    obtain ⟨reply, hr⟩ := discard_ok h
    exact .single (failLease_ok hr).change
  | releaseLease lease input =>
    obtain ⟨disposition, hfail⟩ := releaseLease_ok h
    exact .single hfail.change
  | recoverExpiredLeases input locked =>
    obtain ⟨reply, hr⟩ := discard_ok h
    exact recoverExpiredLeases_changes hr
  | requestCancellation scope jobId at' =>
    obtain ⟨reply, hr⟩ := discard_ok h
    rcases requestCancellation_ok hr with ⟨-, rfl⟩ | ⟨-, -, -, rfl, -⟩ | ⟨caseId, disposition, -, hw⟩
    · exact .refl
    · exact .refl
    · cases hw with
      | requested _ hw => exact .single (.job hw (documentSource_advanced rfl))
      | cancelled hdomain hw => exact .single (.job hw (.kept rfl hdomain))
  | cancelLease lease at' =>
    obtain ⟨reply, hr⟩ := discard_ok h
    obtain ⟨j, c, cancelled, -, hdomain, hw⟩ := cancelLease_ok hr
    exact .single (.job hw (.kept rfl hdomain))
  | claimPending input locked =>
    obtain ⟨reply, hr⟩ := discard_ok h
    exact claimPending_changes hr
  | markDelivered claim input =>
    obtain ⟨reply, hr⟩ := discard_ok h
    rcases markDelivered_ok hr with ⟨-, rfl⟩ | ⟨o, -, -, hw⟩
    · exact .refl
    · exact .single (.outbox hw (fun _ => ⟨claim, rfl, rfl, rfl⟩))
  | recordFailure claim input =>
    obtain ⟨reply, hr⟩ := discard_ok h
    rcases recordFailure_ok hr with rfl | ⟨o, -, hw⟩
    · exact .refl
    · exact .single (.outbox hw (fun hs => absurd hs (OutboxRow.failedDelivery_status _ _ _ _ _)))

/-- Whatever becomes of its attempts, a call commits its operation or nothing. -/
theorem step_call (attempts : List Attempt) (op : Op ρ σ) (db : Db ρ σ) :
    step (.call attempts op) db = db ∨ ∃ u, op.statement db = (.ok u, step (.call attempts op) db) := by
  rcases runSerializableTransaction_cases 3 attempts op.statement db with ⟨e, he⟩ | ⟨u, db', ho, hr | hr⟩
  · left
    rw [step, he]
  · right
    rw [step, hr]
    exact ⟨u, ho⟩
  · right
    rw [step, hr]
    exact ⟨u, ho⟩

/-- A start changes nothing or creates the reproduction of its input. -/
theorem step_start (attempts : List Attempt) (limits : QuotaLimits) (input : DurableStartInput ρ σ)
    (db : Db ρ σ) : step (.call attempts (.start limits input)) db = db ∨
      StartWrite limits input db (step (.call attempts (.start limits input)) db) := by
  rcases step_call attempts (.start limits input) db with hd | ⟨u, hu⟩
  · exact .inl hd
  · obtain ⟨reply, hr⟩ := discard_ok hu
    rcases reserveDurableStart_ok hr with ⟨-, hd, -⟩ | ⟨-, hw⟩
    · exact .inl hd
    · exact .inr hw

def Event.isStart : Event ρ σ → Bool
  | .call _ op => op.isStart
  | _ => false

theorem step_changes {event : Event ρ σ} (hevent : event.isStart = false) (db : Db ρ σ) :
    ReflTransGen (Change event) db (step event db) := by
  cases event with
  | call attempts op =>
    rcases step_call attempts op db with hd | ⟨u, hu⟩
    · rw [hd]
    · exact Op.statement_changes hevent hu
  | clock now =>
    exact .single (.environment now db.tenants db.artifacts db.deletionRequests rfl ⟨.inl rfl, .inl rfl, .inl rfl⟩)
  | tenants t =>
    exact .single (.environment db.now t db.artifacts db.deletionRequests rfl ⟨.inr rfl, .inl rfl, .inl rfl⟩)
  | artifacts t =>
    exact .single (.environment db.now db.tenants t db.deletionRequests rfl ⟨.inl rfl, .inr rfl, .inl rfl⟩)
  | deletionRequests t =>
    exact .single (.environment db.now db.tenants db.artifacts t rfl ⟨.inl rfl, .inl rfl, .inr rfl⟩)

/-- An event commits a sequence of writes. -/
theorem step_writes (event : Event ρ σ) (db : Db ρ σ) : ReflTransGen Write db (step event db) := by
  cases hevent : event.isStart with
  | false =>
    have hlift : ReflTransGen (Change event) ≤ ReflTransGen Write :=
      ReflTransGen.mono (fun _ _ hc => .change hc)
    exact hlift _ _ (step_changes hevent db)
  | true =>
    cases event with
    | call attempts op =>
      cases op with
      | start limits input =>
        rcases step_start attempts limits input db with hd | hw
        · rw [hd]
        · exact .single (.start hw)
      | _ => simp [Event.isStart, Op.isStart] at hevent
    | _ => simp [Event.isStart] at hevent

/-- What every write keeps, every run keeps. -/
theorem run_write_invariant {inv : Db ρ σ → Prop} (hwrite : ∀ db db', inv db → Write db db' → inv db')
    (events : List (Event ρ σ)) {db : Db ρ σ} (h : inv db) : inv (Runs.run step events db) := by
  refine Runs.run_keeps ?_ h
  intro s event hs
  have hgen := step_writes event s
  generalize step event s = s' at hgen ⊢
  induction hgen with
  | refl => exact hs
  | tail _ hw ih => exact hwrite _ _ ih hw

/-- A transitive relation that every write respects relates both ends of a run. -/
theorem run_write_relates {rel : Db ρ σ → Db ρ σ → Prop} (hrefl : ∀ db, rel db db)
    (htrans : ∀ {s t u}, rel s t → rel t u → rel s u) (hwrite : ∀ db db', Write db db' → rel db db')
    (events : List (Event ρ σ)) (db : Db ρ σ) : rel db (Runs.run step events db) := by
  refine Runs.run_relates hrefl htrans ?_ events db
  intro s event
  have hgen := step_writes event s
  generalize step event s = s' at hgen ⊢
  induction hgen with
  | refl => exact hrefl s
  | tail _ hw ih => exact htrans ih (hwrite _ _ hw)

end ReproForge

/-! ## A small instance

One tenant whose jobs run the trusted sample, with no request and no result
documents, and the digests of the texts that its runs hash. -/

namespace ReproForge.Sample

open KeyedTable

scoped instance : ResultDocument Empty := ⟨Empty.elim, Empty.elim⟩

scoped instance : RequestDocument Empty := ⟨Empty.elim, Empty.elim⟩

scoped instance : Sha256 where
  hex text :=
    if text = "acme\u0000case-1" then "a523b6117c5475090b2c429e2384b13bd1704ef948f5ad0e091ad668b197f517"
    else if text = "acme\u0000case-2" then "25853be4224d0f50a9c68a294c78ffedfadf02b17b7077e88c796fac18534adb"
    else if text = "acme\u0000case-3" then "51b9af041b783a88ada917df0243853bbc706a660d26ffdde3530b1aff8ddad6"
    else if text = "acme:job-1:1" then "a7eb647331a7d03cf07d04fe72e009ac7afbb970d2b4390e97613326599487f3"
    else if text = "acme:job-1:2" then "84383198392a620080ba43ed872c0331034d60eee8a17eb2dafcc14ccbbb1080"
    else ""

/-- 2023-11-14T22:13:20.000Z -/
def opening : Instant := 1700000000000

def tenants : Table String TenantRow := Table.empty.insert "acme" ⟨.active, opening, opening, none, none⟩

def command (caseId jobId idempotencyKey : String) (createdAt : Instant) : StartCommand Empty where
  budget := ⟨6, 3⟩
  callerId := "caller"
  caseId := caseId
  commandHash := "6f5902ac237024bdd0c176cb93063dc46f5902ac237024bdd0c176cb93063dc4"
  createdAt := createdAt
  idempotencyKey := idempotencyKey
  jobId := jobId
  principalId := "caller"
  source := .trustedSample .cliSpaces
  tenantId := "acme"

/-- The start transaction of a command that a service accepts. -/
def issue (c : StartCommand Empty)
    (h : (startInput (ρ := Empty) reservationLifetime c).isSome = true) : Event Empty Empty :=
  .call [] (.start .default ((startInput reservationLifetime c).get h))

theorem first_accepted : (startInput (ρ := Empty) reservationLifetime
    (command "case-1" "job-1" "key-1" opening)).isSome = true := by
  decide +kernel

def first : Event Empty Empty := issue (command "case-1" "job-1" "key-1" opening) first_accepted

def second : Event Empty Empty := issue (command "case-2" "job-2" "key-2" opening) (by decide +kernel)

end ReproForge.Sample
