import ReproForge.Schema
import ReproForge.Transaction

/-!
# Statements and serializable transactions

The SQL statements that the durable repositories issue, each as a transaction
step over the database, and the retry loop that runs a transaction. A statement
whose row breaks a constraint or whose trigger raises fails the transaction.
-/
namespace ReproForge

open KeyedTable Transactions Transactions.Tx

inductive StartErrorCode where
  | idempotencyConflict | invalidStartInput | quotaExceeded
  deriving DecidableEq, Repr

structure DurableStartError where
  code : StartErrorCode
  message : String
  retryable : Bool
  deriving DecidableEq, Repr

inductive ArtifactErrorCode where
  | integrityMismatch | pending | providerUnavailable | tenantUnavailable
  deriving DecidableEq, Repr

inductive RetentionError where
  | invalidRequest | invalidSchedule | invalidExecution | corruptState | lostClaim
  deriving DecidableEq, Repr

inductive DurableError where
  | invalidDurableRecord | corruptDurableRecord | optimisticConcurrency | leaseOwnership
  | start : DurableStartError → DurableError
  /-- A schema rejected an argument or a reply. -/
  | schema
  /-- A constraint, a trigger or a literal that the server rejects. -/
  | constraint
  /-- SQLSTATE 40001 or 40P01. -/
  | serialization
  | connection
  | artifact : ArtifactErrorCode → DurableError
  | retention : RetentionError → DurableError
  deriving DecidableEq, Repr

variable {ρ σ : Type} {α : Type}

abbrev Statement (ρ σ α : Type) := Tx (Db ρ σ) DurableError α

/-! ## Single-row updates, by primary key -/

/-- `UPDATE … SET … WHERE key AND condition RETURNING …` on one table. -/
def updateRow {κ τ : Type} [DecidableEq κ] (rows : Db ρ σ → Table κ τ)
    (store : Table κ τ → Db ρ σ → Db ρ σ) (allowed : κ → τ → τ → Bool) (key : κ)
    (condition : τ → Bool) (assign : τ → τ) : Statement ρ σ (Option τ) := fun db =>
  match (rows db).get key with
  | none => (.ok none, db)
  | some row =>
    if condition row then
      if allowed key row (assign row) then
        (.ok (some (assign row)), store ((rows db).set key (assign row)) db)
      else (.error .constraint, db)
    else (.ok none, db)

def updateJob (key : Key) (condition : JobRow → Bool) (assign : JobRow → JobRow) :
    Statement ρ σ (Option JobRow) :=
  updateRow Db.jobs (fun t db => { db with jobs := t }) jobUpdateAllowed key condition assign

def updateCase (key : Key) (condition : CaseRow ρ σ → Bool) (assign : CaseRow ρ σ → CaseRow ρ σ) :
    Statement ρ σ (Option (CaseRow ρ σ)) :=
  updateRow Db.cases (fun t db => { db with cases := t }) caseUpdateAllowed key condition assign

def updateOutbox (key : Key) (condition : OutboxRow → Bool) (assign : OutboxRow → OutboxRow) :
    Statement ρ σ (Option OutboxRow) :=
  updateRow Db.outboxEvents (fun t db => { db with outboxEvents := t }) outboxUpdateAllowed key
    condition assign

/-- Update every ledger row that a condition selects. -/
def updateQuotas (condition : Key → QuotaRow → Bool) (assign : QuotaRow → QuotaRow) :
    Statement ρ σ Unit := fun db =>
  if (db.quotaLedger.select condition).all (fun row => (assign row.2).checks row.1) then
    (.ok (), { db with quotaLedger := db.quotaLedger.update condition (fun _ => assign) })
  else (.error .constraint, db)

/-! ## Insertions -/

def insertCase (key : Key) (row : CaseRow ρ σ) : Statement ρ σ Unit := fun db =>
  if (db.cases.get key).isNone && (db.tenants.get key.tenantId).isSome && row.checks key then
    (.ok (), { db with cases := db.cases.insert key row })
  else (.error .constraint, db)

def insertJob (key : Key) (row : JobRow) : Statement ρ σ Unit := fun db =>
  if (db.jobs.get key).isNone && (db.cases.get ⟨key.tenantId, row.caseId⟩).isSome && row.checks key &&
      cancellationTimestamps row then
    (.ok (), { db with jobs := db.jobs.insert key row })
  else (.error .constraint, db)

/-- The foreign key `(tenant_id, case_id, job_id)` into `jobs`. -/
def jobExists (db : Db ρ σ) (tenantId caseId jobId : String) : Bool :=
  match db.jobs.get ⟨tenantId, jobId⟩ with
  | none => false
  | some j => j.caseId == caseId

def insertIdempotencyKey (key : IdempotencyKey) (row : IdempotencyRow) : Statement ρ σ Unit := fun db =>
  if (db.idempotencyKeys.get key).isNone && jobExists db key.tenantId row.caseId row.jobId &&
      row.checks key then
    (.ok (), { db with idempotencyKeys := db.idempotencyKeys.insert key row })
  else (.error .constraint, db)

def days (n : Int) : Instant := n * 86400000

/-- The CHECK constraints of a new event; its `retention_until` is a default. -/
def outboxInsertChecks (db : Db ρ σ) (key : Key) (row : OutboxRow) : Bool :=
  row.checks key && row.createdAt < db.now + days 30

def outboxInsertAllowed (db : Db ρ σ) (key : Key) (row : OutboxRow) : Bool :=
  outboxInsertChecks db key row && jobExists db key.tenantId row.payload.caseId row.payload.jobId

def insertOutboxEvent (key : Key) (row : OutboxRow) : Statement ρ σ Unit := fun db =>
  if (db.outboxEvents.get key).isNone && outboxInsertAllowed db key row then
    (.ok (), { db with outboxEvents := db.outboxEvents.insert key row })
  else (.error .constraint, db)

/-- `ON CONFLICT (tenant_id, id) DO NOTHING`. The CHECK constraints hold the row
first, the conflict is looked for next, the foreign key last. -/
def insertOutboxEventOrIgnore (key : Key) (row : OutboxRow) : Statement ρ σ Unit := fun db =>
  if !outboxInsertChecks db key row then (.error .constraint, db)
  else if (db.outboxEvents.get key).isSome then (.ok (), db)
  else if outboxInsertAllowed db key row then
    (.ok (), { db with outboxEvents := db.outboxEvents.insert key row })
  else (.error .constraint, db)

def insertAuditEvent (key : Key) (row : AuditRow) : Statement ρ σ Unit := fun db =>
  if (db.auditEvents.get key).isNone && (db.tenants.get key.tenantId).isSome && opaqueId key.id &&
      row.occurredAt < db.now + days 365 then
    (.ok (), { db with auditEvents := db.auditEvents.insert key row })
  else (.error .constraint, db)

/-! ## What a statement that succeeded did -/

theorem updateRow_ok {κ τ : Type} [DecidableEq κ] {rows : Db ρ σ → Table κ τ}
    {store : Table κ τ → Db ρ σ → Db ρ σ} {allowed : κ → τ → τ → Bool} {key : κ}
    {condition : τ → Bool} {assign : τ → τ} {db db' : Db ρ σ} {result : Option τ}
    (h : updateRow rows store allowed key condition assign db = (.ok result, db')) :
    (result = none ∧ db' = db) ∨
      ∃ row, (rows db).get key = some row ∧ condition row = true ∧ allowed key row (assign row) = true ∧
        result = some (assign row) ∧ db' = store ((rows db).set key (assign row)) db := by
  simp only [updateRow] at h
  cases hr : (rows db).get key with
  | none =>
    simp only [hr, Prod.mk.injEq, Except.ok.injEq] at h
    exact .inl ⟨h.1.symm, h.2.symm⟩
  | some row =>
    simp only [hr] at h
    split at h
    · rename_i hc
      split at h
      · rename_i ha
        simp only [Prod.mk.injEq, Except.ok.injEq] at h
        exact .inr ⟨row, rfl, hc, ha, h.1.symm, h.2.symm⟩
      · simp at h
    · simp only [Prod.mk.injEq, Except.ok.injEq] at h
      exact .inl ⟨h.1.symm, h.2.symm⟩

theorem updateJob_some {key : Key} {condition : JobRow → Bool} {assign : JobRow → JobRow}
    {db db' : Db ρ σ} {result : JobRow} (h : updateJob key condition assign db = (.ok (some result), db')) :
    ∃ j, db.jobs.get key = some j ∧ condition j = true ∧ jobUpdateAllowed key j (assign j) = true ∧
      result = assign j ∧ db' = { db with jobs := db.jobs.set key (assign j) } := by
  rcases updateRow_ok h with ⟨he, -⟩ | ⟨j, hj, hc, ha, he, hd⟩
  · cases he
  · exact ⟨j, hj, hc, ha, Option.some.inj he, hd⟩

theorem updateCase_some {key : Key} {condition : CaseRow ρ σ → Bool}
    {assign : CaseRow ρ σ → CaseRow ρ σ} {db db' : Db ρ σ} {result : CaseRow ρ σ}
    (h : updateCase key condition assign db = (.ok (some result), db')) :
    ∃ c, db.cases.get key = some c ∧ condition c = true ∧ caseUpdateAllowed key c (assign c) = true ∧
      result = assign c ∧ db' = { db with cases := db.cases.set key (assign c) } := by
  rcases updateRow_ok h with ⟨he, -⟩ | ⟨c, hc, hw, ha, he, hd⟩
  · cases he
  · exact ⟨c, hc, hw, ha, Option.some.inj he, hd⟩

/-- An update that returns no row changed nothing. -/
theorem updateRow_none {κ τ : Type} [DecidableEq κ] {rows : Db ρ σ → Table κ τ}
    {store : Table κ τ → Db ρ σ → Db ρ σ} {allowed : κ → τ → τ → Bool} {key : κ}
    {condition : τ → Bool} {assign : τ → τ} {db db' : Db ρ σ}
    (h : updateRow rows store allowed key condition assign db = (.ok none, db')) : db' = db := by
  rcases updateRow_ok h with ⟨-, hd⟩ | ⟨row, -, -, -, he, -⟩
  · exact hd
  · cases he

theorem updateQuotas_ok {condition : Key → QuotaRow → Bool} {assign : QuotaRow → QuotaRow}
    {db db' : Db ρ σ} {u : Unit} (h : updateQuotas condition assign db = (.ok u, db')) :
    (∀ key q, db.quotaLedger.get key = some q → condition key q = true →
      (assign q).checks key = true) ∧
      db' = { db with quotaLedger := db.quotaLedger.update condition (fun _ => assign) } := by
  simp only [updateQuotas] at h
  split at h
  · rename_i hall
    simp only [Prod.mk.injEq] at h
    refine ⟨?_, h.2.symm⟩
    intro key q hq hc
    exact List.all_eq_true.mp hall (key, q) (Table.mem_select.mpr ⟨hq, hc⟩)
  · simp at h

theorem insertCase_ok {key : Key} {row : CaseRow ρ σ} {db db' : Db ρ σ} {u : Unit}
    (h : insertCase key row db = (.ok u, db')) :
    db.cases.get key = none ∧ (∃ t, db.tenants.get key.tenantId = some t) ∧ row.checks key = true ∧
      db' = { db with cases := db.cases.insert key row } := by
  simp only [insertCase] at h
  split at h
  · rename_i hc
    simp only [Bool.and_eq_true, Option.isNone_iff_eq_none, Option.isSome_iff_exists] at hc
    simp only [Prod.mk.injEq] at h
    exact ⟨hc.1.1, hc.1.2, hc.2, h.2.symm⟩
  · simp at h

theorem insertJob_ok {key : Key} {row : JobRow} {db db' : Db ρ σ} {u : Unit}
    (h : insertJob key row db = (.ok u, db')) :
    db.jobs.get key = none ∧ (∃ c, db.cases.get ⟨key.tenantId, row.caseId⟩ = some c) ∧
      row.checks key = true ∧ cancellationTimestamps row = true ∧
      db' = { db with jobs := db.jobs.insert key row } := by
  simp only [insertJob] at h
  split at h
  · rename_i hc
    simp only [Bool.and_eq_true, Option.isNone_iff_eq_none, Option.isSome_iff_exists] at hc
    simp only [Prod.mk.injEq] at h
    exact ⟨hc.1.1.1, hc.1.1.2, hc.1.2, hc.2, h.2.symm⟩
  · simp at h

theorem jobExists_iff {db : Db ρ σ} {tenantId caseId jobId : String} :
    jobExists db tenantId caseId jobId = true ↔
      ∃ j, db.jobs.get ⟨tenantId, jobId⟩ = some j ∧ j.caseId = caseId := by
  unfold jobExists
  split <;> simp_all

theorem insertIdempotencyKey_ok {key : IdempotencyKey} {row : IdempotencyRow} {db db' : Db ρ σ}
    {u : Unit} (h : insertIdempotencyKey key row db = (.ok u, db')) :
    db.idempotencyKeys.get key = none ∧ jobExists db key.tenantId row.caseId row.jobId = true ∧
      row.checks key = true ∧ db' = { db with idempotencyKeys := db.idempotencyKeys.insert key row } := by
  simp only [insertIdempotencyKey] at h
  split at h
  · rename_i hc
    simp only [Bool.and_eq_true, Option.isNone_iff_eq_none] at hc
    simp only [Prod.mk.injEq] at h
    exact ⟨hc.1.1, hc.1.2, hc.2, h.2.symm⟩
  · simp at h

theorem insertOutboxEvent_ok {key : Key} {row : OutboxRow} {db db' : Db ρ σ} {u : Unit}
    (h : insertOutboxEvent key row db = (.ok u, db')) :
    db.outboxEvents.get key = none ∧ outboxInsertAllowed db key row = true ∧
      db' = { db with outboxEvents := db.outboxEvents.insert key row } := by
  simp only [insertOutboxEvent] at h
  split at h
  · rename_i hc
    simp only [Bool.and_eq_true, Option.isNone_iff_eq_none] at hc
    simp only [Prod.mk.injEq] at h
    exact ⟨hc.1, hc.2, h.2.symm⟩
  · simp at h

theorem insertOutboxEventOrIgnore_ok {key : Key} {row : OutboxRow} {db db' : Db ρ σ} {u : Unit}
    (h : insertOutboxEventOrIgnore key row db = (.ok u, db')) :
    outboxInsertChecks db key row = true ∧
      (((∃ o, db.outboxEvents.get key = some o) ∧ db' = db) ∨
        (db.outboxEvents.get key = none ∧ outboxInsertAllowed db key row = true ∧
          db' = { db with outboxEvents := db.outboxEvents.insert key row })) := by
  simp only [insertOutboxEventOrIgnore] at h
  split at h
  · simp at h
  · rename_i hc
    refine ⟨by simpa using hc, ?_⟩
    split at h
    · rename_i hs
      simp only [Prod.mk.injEq] at h
      exact .inl ⟨Option.isSome_iff_exists.mp hs, h.2.symm⟩
    · rename_i hs
      split at h
      · rename_i ha
        simp only [Prod.mk.injEq] at h
        exact .inr ⟨by simpa using hs, ha, h.2.symm⟩
      · simp at h

/-- With or without a conflict the outbox ends up as one insertion leaves it. -/
theorem insertOutboxEventOrIgnore_result {key : Key} {row : OutboxRow} {db db' : Db ρ σ} {u : Unit}
    (h : insertOutboxEventOrIgnore key row db = (.ok u, db')) :
    db' = { db with outboxEvents := db.outboxEvents.insert key row } := by
  rcases (insertOutboxEventOrIgnore_ok h).2 with ⟨⟨o, ho⟩, hd⟩ | ⟨-, -, hd⟩
  · rw [hd, Table.insert_existing ho]
  · exact hd

theorem insertAuditEvent_ok {key : Key} {row : AuditRow} {db db' : Db ρ σ} {u : Unit}
    (h : insertAuditEvent key row db = (.ok u, db')) :
    db.auditEvents.get key = none ∧ db' = { db with auditEvents := db.auditEvents.insert key row } := by
  simp only [insertAuditEvent] at h
  split at h
  · rename_i hc
    simp only [Bool.and_eq_true, Option.isNone_iff_eq_none] at hc
    simp only [Prod.mk.injEq] at h
    exact ⟨hc.1.1.1, h.2.symm⟩
  · simp at h

/-! ## The retry loop -/

/-- What the server and the connection do with one attempt at a transaction. -/
inductive Attempt where
  | runs
  /-- The server aborts the attempt with a retryable code. -/
  | serializationFailure
  /-- The connection fails before the commit. -/
  | failsBefore
  /-- The commit takes effect and its acknowledgement is lost. -/
  | failsAfter
  deriving DecidableEq, Repr

def Attempt.transaction (attempt : Attempt) (operation : Statement ρ σ α) (db : Db ρ σ) :
    Except DurableError α × Db ρ σ :=
  match attempt with
  | .runs => atomically operation db
  | .serializationFailure => (.error .serialization, db)
  | .failsBefore => (.error .connection, db)
  | .failsAfter =>
    match atomically operation db with
    | (.ok _, db') => (.error .connection, db')
    | (.error e, db') => (.error e, db')

def isRetryableTransactionError (e : DurableError) : Bool := e == .serialization

/-- At most `maxAttempts` attempts; an attempt that the list does not name runs. -/
def runSerializableTransaction (maxAttempts : Nat) (attempts : List Attempt)
    (operation : Statement ρ σ α) (db : Db ρ σ) : Except DurableError α × Db ρ σ :=
  match maxAttempts with
  | 0 => (.error .serialization, db)
  | n + 1 =>
    match (attempts.headD .runs).transaction operation db with
    | (.ok a, db') => (.ok a, db')
    | (.error e, db') =>
      if n == 0 || !isRetryableTransactionError e then (.error e, db')
      else runSerializableTransaction n attempts.tail operation db'

theorem transaction_cases (attempt : Attempt) (operation : Statement ρ σ α) (db : Db ρ σ) :
    (∃ e, attempt.transaction operation db = (.error e, db)) ∨
      ∃ a db', operation db = (.ok a, db') ∧
        (attempt.transaction operation db = (.ok a, db') ∨
          attempt.transaction operation db = (.error .connection, db')) := by
  cases ha : atomically operation db with
  | mk reply db' =>
    cases reply with
    | ok a =>
      have ho := atomically_ok.mp ha
      cases attempt with
      | runs => exact .inr ⟨a, db', ho, .inl ha⟩
      | serializationFailure => exact .inl ⟨_, rfl⟩
      | failsBefore => exact .inl ⟨_, rfl⟩
      | failsAfter => exact .inr ⟨a, db', ho, .inr (by simp [Attempt.transaction, ha])⟩
    | error e =>
      have hd := atomically_error ha
      subst hd
      cases attempt with
      | runs => exact .inl ⟨e, ha⟩
      | serializationFailure => exact .inl ⟨_, rfl⟩
      | failsBefore => exact .inl ⟨_, rfl⟩
      | failsAfter => exact .inl ⟨e, by simp [Attempt.transaction, ha]⟩

/-- However the attempts fare, the operation takes effect once as a whole or not
at all, and only a lost acknowledgement hides an effect. -/
theorem runSerializableTransaction_cases (maxAttempts : Nat) (attempts : List Attempt)
    (operation : Statement ρ σ α) (db : Db ρ σ) :
    (∃ e, runSerializableTransaction maxAttempts attempts operation db = (.error e, db)) ∨
      ∃ a db', operation db = (.ok a, db') ∧
        (runSerializableTransaction maxAttempts attempts operation db = (.ok a, db') ∨
          runSerializableTransaction maxAttempts attempts operation db = (.error .connection, db')) := by
  induction maxAttempts generalizing attempts with
  | zero => exact .inl ⟨_, rfl⟩
  | succ n ih =>
    rw [runSerializableTransaction]
    rcases transaction_cases (attempts.headD .runs) operation db with ⟨e, he⟩ | ⟨a, db', ho, hr | hr⟩
    · rw [he]
      simp only
      split
      · exact .inl ⟨e, rfl⟩
      · exact ih attempts.tail
    · rw [hr]
      exact .inr ⟨a, db', ho, .inl rfl⟩
    · rw [hr]
      exact .inr ⟨a, db', ho, .inr (by simp [isRetryableTransactionError])⟩

/-- A reply that arrives reports the state that the operation left. -/
theorem runSerializableTransaction_ok {maxAttempts : Nat} {attempts : List Attempt}
    {operation : Statement ρ σ α} {db db' : Db ρ σ} {a : α}
    (h : runSerializableTransaction maxAttempts attempts operation db = (.ok a, db')) :
    operation db = (.ok a, db') := by
  rcases runSerializableTransaction_cases maxAttempts attempts operation db with
    ⟨e, he⟩ | ⟨b, t, ho, hr | hr⟩
  · rw [he] at h
    simp at h
  · rw [hr] at h
    rw [ho]
    exact h
  · rw [hr] at h
    simp at h

/-- A call that failed changed nothing, unless an acknowledgement was lost. -/
theorem runSerializableTransaction_error {maxAttempts : Nat} {attempts : List Attempt}
    {operation : Statement ρ σ α} {db db' : Db ρ σ} {e : DurableError}
    (h : runSerializableTransaction maxAttempts attempts operation db = (.error e, db'))
    (hlost : .failsAfter ∉ attempts) : db' = db := by
  induction maxAttempts generalizing attempts with
  | zero => exact (Prod.mk.inj h).2.symm
  | succ n ih =>
    have hhead : ∀ f t, (attempts.headD .runs).transaction operation db = (.error f, t) → t = db := by
      intro f t ht
      cases hattempt : attempts.headD .runs with
      | runs =>
        rw [hattempt] at ht
        exact atomically_error ht
      | serializationFailure =>
        rw [hattempt] at ht
        exact (Prod.mk.inj ht).2.symm
      | failsBefore =>
        rw [hattempt] at ht
        exact (Prod.mk.inj ht).2.symm
      | failsAfter =>
        cases attempts with
        | nil => cases hattempt
        | cons a rest => exact absurd (by simpa using hattempt.symm) (fun he => hlost (List.mem_cons.mpr (.inl he)))
    rw [runSerializableTransaction] at h
    cases ha : (attempts.headD .runs).transaction operation db with
    | mk reply t =>
      rw [ha] at h
      cases reply with
      | ok a => simp at h
      | error f =>
        simp only at h
        split at h
        · rw [← (Prod.mk.inj h).2]
          exact hhead f t ha
        · obtain rfl := hhead f t ha
          exact ih h (fun hm => hlost (List.mem_of_mem_tail hm))

/-- The reply of an operation is left out after the retries as well as before them. -/
theorem runSerializableTransaction_discard (maxAttempts : Nat) (attempts : List Attempt)
    (operation : Statement ρ σ α) (db : Db ρ σ) :
    (runSerializableTransaction maxAttempts attempts (do let _ ← operation; pure ()) db).2 =
      (runSerializableTransaction maxAttempts attempts operation db).2 := by
  have hatomic : ∀ db, atomically (do let _ ← operation; pure () : Statement ρ σ Unit) db =
      ((atomically operation db).1.map (fun _ => ()), (atomically operation db).2) := by
    intro db
    simp only [atomically, bind_apply]
    cases operation db with
    | mk reply t => cases reply <;> rfl
  have hone : ∀ (attempt : Attempt) db, attempt.transaction (do let _ ← operation; pure ()) db =
      ((attempt.transaction operation db).1.map (fun _ => ()), (attempt.transaction operation db).2) := by
    intro attempt db
    cases attempt with
    | runs => exact hatomic db
    | serializationFailure => rfl
    | failsBefore => rfl
    | failsAfter =>
      simp only [Attempt.transaction, hatomic]
      cases atomically operation db with
      | mk reply t => cases reply <;> rfl
  induction maxAttempts generalizing attempts db with
  | zero => rfl
  | succ n ih =>
    rw [runSerializableTransaction, runSerializableTransaction, hone]
    cases (attempts.headD .runs).transaction operation db with
    | mk reply t =>
      cases reply with
      | ok a => rfl
      | error e =>
        simp only [Except.map]
        split
        · rfl
        · exact ih attempts.tail t

end ReproForge
