import ReproForge.LeasedRows

/-!
# Recovery of expired leases, job by job

All the leases that one recovery selects are ended in one transaction, so a job
that cannot be moved takes the others down with it. `Recoverable` is the exact
condition under which one selected job can be moved, and a recovery succeeds
just when every selected job meets it.
-/
namespace ReproForge

open KeyedTable Transactions Transactions.Tx Relation

variable {ρ σ : Type}

/-! ## What a recovery does to one job -/

/-- A row that the query of `recoverExpiredLeases` selects. -/
structure Expired (db : Db ρ σ) (at' : Instant) (row : Key × JobRow) : Prop where
  job : db.jobs.get row.1 = some row.2
  running : row.2.state = .running
  expired : row.2.leaseExpiresAt.any (· ≤ at') = true

def recoveryDisposition (j : JobRow) : LeaseFailureDisposition :=
  if j.cancellationRequestedAt.isSome then .cancelled
  else if j.attempt < j.maxAttempts then .requeued
  else .exhausted

def recoveredJob (at' : Instant) (j : JobRow) : JobRow :=
  match recoveryDisposition j with
  | .cancelled => j.cancelledRunning at'
  | .requeued => j.failed none at' at'
  | .exhausted => j.failed (some exhaustedFailure) at' at'

/-- The audit event of one recovered lease. -/
def recoveryAudit [Sha256] (at' : Instant) (row : Key × JobRow) : AuditEvent where
  action := "job.lease-recovered"
  actorId := "operator:lease-recovery"
  eventId := recoveryAuditEventId row.1.tenantId row.1.id row.2.attempt
  metadata := [("attempt", .number row.2.attempt), ("disposition", .text (recoveryDisposition row.2).text)]
  occurredAt := at'
  outcome := if recoveryDisposition row.2 = .exhausted then .failure else .success
  targetId := row.1.id
  targetType := .job
  tenantId := row.1.tenantId

def recoveryAuditKey [Sha256] (row : Key × JobRow) : Key :=
  ⟨row.1.tenantId, recoveryAuditEventId row.1.tenantId row.1.id row.2.attempt⟩

/-- The job was recovered, cancelled or exhausted, with one audit entry. -/
structure Recovered [Sha256] (db db' : Db ρ σ) (at' : Instant) (row : Key × JobRow) : Prop where
  job : db'.jobs.get row.1 = some (recoveredJob at' row.2)
  fresh : db.auditEvents.get (recoveryAuditKey row) = none
  audit : db'.auditEvents.get (recoveryAuditKey row) = some (auditRow (recoveryAudit at' row))

/-- The job was left as it was, without an audit entry. -/
structure Skipped [Sha256] (db db' : Db ρ σ) (row : Key × JobRow) : Prop where
  job : db'.jobs.get row.1 = some row.2
  audit : db'.auditEvents.get (recoveryAuditKey row) = db.auditEvents.get (recoveryAuditKey row)

def RecoverInput.accepted (input : RecoverInput) : Bool :=
  datetime input.at' && 1 ≤ input.limit && input.limit ≤ 1000

/-- Each job was moved or skipped on its own, and the audit trail has nothing but the entries about them. -/
structure EachAlone [Sha256] (db db' : Db ρ σ) (at' : Instant) (rows : List (Key × JobRow)) : Prop where
  each : ∀ row ∈ rows, Recovered db db' at' row ∨ Skipped db db' row
  entries : ∀ key, key ∉ rows.map recoveryAuditKey → db'.auditEvents.get key = db.auditEvents.get key

/-- A recovery succeeds and moves or skips each selected job on its own. -/
def RecoveryIsolated [ResultDocument ρ] [RequestDocument σ] [Sha256] (db : Db ρ σ) (input : RecoverInput)
    (locked : List Key) : Prop :=
  input.accepted = true →
    ∃ summary db', runSerializableTransaction 3 [] (recoverExpiredLeases input locked) db = (.ok summary, db') ∧
      EachAlone db db' input.at' (expiredLeases db input.at' input.limit locked)

/-- What lets the lease of one selected job be ended. -/
structure Endable (db : Db ρ σ) (at' : Instant) (row : Key × JobRow) : Prop where
  /-- Neither the job nor its case was updated later than `at`. -/
  job : row.2.updatedAt ≤ at'
  case : ∀ c ∈ db.cases.get ⟨row.1.tenantId, row.2.caseId⟩, c.updatedAt ≤ at'
  version : row.2.version < maxSafeInteger
  cancellable : recoveryDisposition row.2 = .cancelled →
    ∀ c ∈ db.cases.get ⟨row.1.tenantId, row.2.caseId⟩, canTransition c.state .cancelled = true
  /-- The recovery event is not past its retention when it is made. -/
  event : recoveryDisposition row.2 = .requeued → at' < db.now + days 30

/-- What lets one selected job be recovered: its lease can be ended and the
audit trail takes the entry about it. -/
structure Recoverable [Sha256] (db : Db ρ σ) (at' : Instant) (row : Key × JobRow) : Prop where
  ended : Endable db at' row
  retained : at' < db.now + days 365
  tenant : (db.tenants.get row.1.tenantId).isSome = true
  fresh : db.auditEvents.get (recoveryAuditKey row) = none

instance (db : Db ρ σ) (at' : Instant) (row : Key × JobRow) : Decidable (Endable db at' row) :=
  decidable_of_iff
    (row.2.updatedAt ≤ at' ∧
      (∀ c ∈ db.cases.get ⟨row.1.tenantId, row.2.caseId⟩, c.updatedAt ≤ at') ∧
      row.2.version < maxSafeInteger ∧
      (recoveryDisposition row.2 = .cancelled →
        ∀ c ∈ db.cases.get ⟨row.1.tenantId, row.2.caseId⟩, canTransition c.state .cancelled = true) ∧
      (recoveryDisposition row.2 = .requeued → at' < db.now + days 30))
    ⟨fun h => ⟨h.1, h.2.1, h.2.2.1, h.2.2.2.1, h.2.2.2.2⟩,
      fun h => ⟨h.job, h.case, h.version, h.cancellable, h.event⟩⟩

instance [Sha256] (db : Db ρ σ) (at' : Instant) (row : Key × JobRow) : Decidable (Recoverable db at' row) :=
  decidable_of_iff
    (Endable db at' row ∧ at' < db.now + days 365 ∧ (db.tenants.get row.1.tenantId).isSome = true ∧
      db.auditEvents.get (recoveryAuditKey row) = none)
    ⟨fun h => ⟨h.1, h.2.1, h.2.2.1, h.2.2.2⟩, fun h => ⟨h.ended, h.retained, h.tenant, h.fresh⟩⟩

/-- Every selected job is recoverable, under an audit entry of its own. -/
def AllRecoverable [Sha256] (db : Db ρ σ) (input : RecoverInput) (locked : List Key) : Prop :=
  input.accepted = true →
    (∀ row ∈ expiredLeases db input.at' input.limit locked, Recoverable db input.at' row) ∧
      ((expiredLeases db input.at' input.limit locked).map recoveryAuditKey).Nodup

/-! ## Identifiers -/

theorem opaqueChar_of_lowerHex {c : Char} (h : lowerHex c = true) : opaqueChar c = true := by
  simp only [lowerHex, Bool.or_eq_true, Bool.and_eq_true, decide_eq_true_eq] at h
  have halnum : c.isAlphanum = true := by
    have hclasses : c.isAlphanum = ((c.isUpper || c.isLower) || c.isDigit) := rfl
    have hlower : c.isLower = (decide (c.val ≥ 'a'.val) && decide (c.val ≤ 'z'.val)) := rfl
    rw [hclasses, Bool.or_eq_true, Bool.or_eq_true]
    rcases h with hd | ⟨hlow, hhigh⟩
    · exact .inr hd
    · refine .inl (.inr ?_)
      rw [hlower, Bool.and_eq_true, decide_eq_true_eq, decide_eq_true_eq]
      exact ⟨hlow, UInt32.le_trans hhigh (by decide)⟩
  simp [opaqueChar, halnum]

/-- A digest after a short identifier is an identifier. -/
theorem opaqueId_append {name digest : String} (hname : opaqueId name = true)
    (hdigest : digest.toList.all lowerHex = true) (hlength : name.toList.length + digest.toList.length ≤ 128) :
    opaqueId (name ++ digest) = true := by
  unfold opaqueId at hname ⊢
  rw [String.toList_append]
  cases hlist : name.toList with
  | nil => simp [hlist] at hname
  | cons c rest =>
    simp only [hlist, Bool.and_eq_true, decide_eq_true_eq, List.length_cons] at hname hlength
    simp only [List.cons_append, Bool.and_eq_true, decide_eq_true_eq, List.all_append, List.length_append]
    refine ⟨⟨hname.1.1, hname.1.2, ?_⟩, by omega⟩
    rw [List.all_eq_true] at hdigest ⊢
    exact fun d hd => opaqueChar_of_lowerHex (hdigest d hd)

/-- `digest("hex")` of SHA-256. -/
def LawfulDigest [Sha256] : Prop := ∀ text, hexDigest 64 (Sha256.hex text) = true

theorem hashPrefix_hex [Sha256] (hsha : LawfulDigest) (text : String) :
    (hashPrefix 40 text).toList.all lowerHex = true ∧ (hashPrefix 40 text).toList.length ≤ 40 := by
  have h := hsha text
  simp only [hexDigest, Bool.and_eq_true, beq_iff_eq] at h
  rw [hashPrefix, String.toList_ofList]
  refine ⟨?_, by rw [List.length_take]; exact min_le_left _ _⟩
  rw [List.all_eq_true] at h ⊢
  exact fun c hc => h.2 c (List.mem_of_mem_take hc)

theorem recoveryEventId_opaque [Sha256] (hsha : LawfulDigest) (tenantId jobId : String) (attempt : Nat) :
    opaqueId (recoveryEventId tenantId jobId attempt) = true := by
  obtain ⟨hhex, hlen⟩ := hashPrefix_hex hsha (tenantId ++ ":" ++ jobId ++ ":" ++ toString attempt)
  refine opaqueId_append (by decide +kernel) hhex ?_
  have hname : "recovery_".toList.length = 9 := by decide +kernel
  omega

theorem recoveryAuditEventId_opaque [Sha256] (hsha : LawfulDigest) (tenantId jobId : String) (attempt : Nat) :
    opaqueId (recoveryAuditEventId tenantId jobId attempt) = true := by
  obtain ⟨hhex, hlen⟩ := hashPrefix_hex hsha (tenantId ++ ":" ++ jobId ++ ":" ++ toString attempt)
  refine opaqueId_append (by decide +kernel) hhex ?_
  have hname : "audit_lease_recovery_".toList.length = 21 := by decide +kernel
  omega

/-! ## Updates that the triggers let through -/

theorem jobUpdateAllowed_failed {key : Key} {j : JobRow} {stored : Option JobFailure} {at' : Instant}
    (h : j.checks key = true) (hs : j.state = .running) (hflag : j.cancellationRequestedAt = none)
    (hstored : stored = none ∨ stored = some exhaustedFailure) (hat : j.updatedAt ≤ at') :
    jobUpdateAllowed key j (j.failed stored at' at') = true := by
  simp only [JobRow.checks, JobRow.cancellationShape, hs, hflag, Bool.and_eq_true, decide_eq_true_eq] at h
  obtain ⟨⟨⟨⟨⟨⟨⟨⟨⟨⟨⟨⟨hid, hpos⟩, hattempts⟩, -⟩, -⟩, hshape⟩, hversion⟩, horder⟩, hretention⟩, -⟩, hcancelled⟩, -⟩,
    -⟩ := h
  have hnone : j.cancelledAt = none := by simpa using hshape
  have hcode : isFailureCode exhaustedFailure.code = true := by decide +kernel
  have hmessage : 1 ≤ exhaustedFailure.message.length ∧ exhaustedFailure.message.length ≤ 512 := by decide +kernel
  have hcreated : j.createdAt ≤ at' := le_trans horder hat
  rcases hstored with rfl | rfl
  · simp [jobUpdateAllowed, successorVersion, jobTransition, cancellationTimestamps, JobRow.failed, hs, hat,
      JobRow.checks, JobRow.leaseComplete, JobRow.failureShape, JobRow.cancellationShape, hid, hpos, hattempts,
      hflag, hnone, hcreated, hretention]
  · simp [jobUpdateAllowed, successorVersion, jobTransition, cancellationTimestamps, JobRow.failed, hs, hat,
      JobRow.checks, JobRow.leaseComplete, JobRow.failureShape, JobRow.cancellationShape, hid, hpos, hattempts,
      hflag, hnone, hcreated, hretention, hcode, hmessage]

theorem jobUpdateAllowed_cancelled {key : Key} {j : JobRow} {at' : Instant} (h : j.checks key = true)
    (hs : j.state = .running) (hflag : j.cancellationRequestedAt.isSome = true) (hat : j.updatedAt ≤ at') :
    jobUpdateAllowed key j (j.cancelledRunning at') = true := by
  simp only [JobRow.checks, JobRow.failureShape, hs, Bool.and_eq_true, decide_eq_true_eq] at h
  obtain ⟨⟨⟨⟨⟨⟨⟨⟨⟨⟨⟨⟨hid, hpos⟩, hattempts⟩, -⟩, hfailure⟩, -⟩, hversion⟩, horder⟩, hretention⟩, hrequested⟩, -⟩,
    hcode⟩, hmessage⟩ := h
  have hcreated : j.createdAt ≤ at' := le_trans horder hat
  obtain ⟨requested, hflag⟩ := Option.isSome_iff_exists.mp hflag
  have hrequested : j.createdAt ≤ requested := by simpa [hflag] using hrequested
  simp only [reduceCtorEq, if_false, Bool.and_eq_true] at hfailure
  simp [jobUpdateAllowed, successorVersion, jobTransition, cancellationTimestamps, JobRow.cancelledRunning, hs,
    hat, JobRow.checks, JobRow.leaseComplete, JobRow.failureShape, JobRow.cancellationShape, hid, hpos, hattempts,
    hflag, hfailure, hcreated, hretention, hrequested, hcode, hmessage]

theorem caseUpdateAllowed_moved {key : Key} {c c' : CaseRow ρ σ} (h : c.checks key = true)
    (hversion : c'.version = c.version + 1) (hschema : c'.schemaVersion = c.schemaVersion)
    (hcreated : c'.createdAt = c.createdAt) (hretention : c'.retentionUntil = c.retentionUntil)
    (hat : c.updatedAt ≤ c'.updatedAt) : caseUpdateAllowed key c c' = true := by
  simp only [CaseRow.checks, Bool.and_eq_true, decide_eq_true_eq] at h
  simp only [caseUpdateAllowed, successorVersion, CaseRow.checks, hversion, hschema, hcreated, hretention,
    Bool.and_eq_true, decide_eq_true_eq, beq_self_eq_true, true_and]
  exact ⟨hat, ⟨⟨h.1.1.1, by omega⟩, le_trans h.1.2 hat⟩, h.2⟩

/-! ## Statements that find what they expect -/

theorem returnedVersion_run {v : Nat} (hb : v ≤ maxSafeInteger) (db : Db ρ σ) :
    returnedVersion (some v) db = (.ok v, db) := by
  rw [returnedVersion, Option.getD_some, integer_some.mpr ⟨rfl, hb⟩]
  rfl

theorem saveJob_run {key : Key} {condition : JobRow → Bool} {assign : JobRow → JobRow} {expected : Nat}
    {e : DurableError} {db : Db ρ σ} {j : JobRow} (hj : db.jobs.get key = some j) (hw : condition j = true)
    (hallowed : jobUpdateAllowed key j (assign j) = true) (hversion : (assign j).version = expected + 1)
    (hb : expected < maxSafeInteger) :
    saveJob key condition assign expected e db = (.ok (), { db with jobs := db.jobs.set key (assign j) }) := by
  have hupdate : updateJob key condition assign db =
      (.ok (some (assign j)), { db with jobs := db.jobs.set key (assign j) }) := by
    simp only [updateJob, updateRow, hj, hw, hallowed, if_true]
  simp only [saveJob, bind_ok, require_ok]
  refine ⟨some (assign j), _, hupdate, expected + 1, _, ?_, by simp, rfl⟩
  rw [Option.map_some, hversion]
  exact returnedVersion_run hb _

theorem saveCase_run {key : Key} {condition : CaseRow ρ σ → Bool} {assign : CaseRow ρ σ → CaseRow ρ σ}
    {expected : Nat} {e : DurableError} {db : Db ρ σ} {c : CaseRow ρ σ} (hc : db.cases.get key = some c)
    (hw : condition c = true) (hallowed : caseUpdateAllowed key c (assign c) = true)
    (hversion : (assign c).version = expected + 1) (hb : expected < maxSafeInteger) :
    saveCase key condition assign expected e db = (.ok (), { db with cases := db.cases.set key (assign c) }) := by
  have hupdate : updateCase key condition assign db =
      (.ok (some (assign c)), { db with cases := db.cases.set key (assign c) }) := by
    simp only [updateCase, updateRow, hc, hw, hallowed, if_true]
  simp only [saveCase, bind_ok, require_ok]
  refine ⟨some (assign c), _, hupdate, expected + 1, _, ?_, by simp, rfl⟩
  rw [Option.map_some, hversion]
  exact returnedVersion_run hb _

/-- The release of a reservation that is no younger than its job. -/
theorem releaseActiveJobQuota_run {db : Db ρ σ} (hledger : LedgerFits db) {key : Key} {j : JobRow}
    (hj : db.jobs.get key = some j) {at' : Instant} (hat : j.createdAt ≤ at') {db' : Db ρ σ}
    (hsame : db'.quotaLedger = db.quotaLedger) :
    releaseActiveJobQuota key.tenantId key.id at' db' =
      (.ok (), { db' with quotaLedger := releasedQuotas key.tenantId key.id at' db.quotaLedger }) := by
  have hchecks : (db'.quotaLedger.select (activeJobReservation key.tenantId key.id)).all
      (fun row => (row.2.released at').checks row.1) = true := by
    rw [List.all_eq_true]
    rintro ⟨qkey, q⟩ hmem
    obtain ⟨hq, hmatch⟩ := Table.mem_select.mp hmem
    simp only [activeJobReservation, Bool.and_eq_true, beq_iff_eq] at hmatch
    obtain ⟨⟨⟨htenant, hid⟩, hresource⟩, hstate⟩ := hmatch
    obtain ⟨hfits, j', hj', hle⟩ := hledger key qkey q (hsame ▸ hq) ⟨htenant, hid, hresource⟩ hstate
    obtain rfl := Option.some.inj (hj.symm.trans hj')
    simp only [QuotaRow.checks, Bool.and_eq_true, decide_eq_true_eq] at hfits ⊢
    obtain ⟨⟨⟨⟨⟨⟨⟨hq₁, hq₂⟩, hq₃⟩, hq₄⟩, hq₅⟩, -⟩, hq₇⟩, hq₈⟩ := hfits
    exact ⟨⟨⟨⟨⟨⟨⟨hq₁, hq₂⟩, hq₃⟩, hq₄⟩, hq₅⟩, le_trans hle hat⟩, hq₇⟩, hq₈⟩
  rw [releaseActiveJobQuota, updateQuotas, if_pos hchecks, hsame]
  rfl

theorem insertOutboxEventOrIgnore_run {key : Key} {row : OutboxRow} {db : Db ρ σ}
    (hchecks : outboxInsertChecks db key row = true)
    (hjob : jobExists db key.tenantId row.payload.caseId row.payload.jobId = true) :
    insertOutboxEventOrIgnore key row db =
      (.ok (), { db with outboxEvents := db.outboxEvents.insert key row }) := by
  rw [insertOutboxEventOrIgnore, hchecks]
  simp only [Bool.not_true, Bool.false_eq_true, if_false]
  cases hget : db.outboxEvents.get key with
  | none => simp [outboxInsertAllowed, hchecks, hjob]
  | some o => simp [Table.insert_existing hget]

/-! ## The lease of a selected job -/

variable [ResultDocument ρ] [RequestDocument σ] [Sha256]

/-- The databases that worlds reach. -/
structure Coherent (db : Db ρ σ) : Prop where
  lockstep : Lockstep db
  rows : RowsFit db

/-- A selected job with its reproduction and its lease. -/
structure Held (db : Db ρ σ) (at' : Instant) (row : Key × JobRow) (r : DurableRow ρ σ) (lease : JobLease) :
    Prop where
  joined : Joined db r
  jobKey : r.jobKey = row.1
  job : r.job = row.2
  only : ∀ other, Joined db other → other.jobKey = row.1 → other = r
  readable : ReadableRow r
  tenantId : lease.tenantId = row.1.tenantId
  jobId : lease.jobId = row.1.id
  leased : row.2.leasedBy lease = true
  valid : lease.valid = true
  expired : lease.expiresAt ≤ at'

variable {db db' : Db ρ σ} {at' : Instant} {row : Key × JobRow}

omit [Sha256] in
theorem Coherent.held (hdb : Coherent db) (he : Expired db at' row) : ∃ r lease, Held db at' row r lease := by
  obtain ⟨r, hr, hkey⟩ := hdb.lockstep.jobOwned _ _ he.job
  have hjob : r.job = row.2 := Option.some.inj ((hkey ▸ hr.job).symm.trans he.job)
  have hchecks := hdb.rows.jobs _ _ he.job
  obtain ⟨expiresAt, hexpires, hle⟩ := (Option.any_eq_true _ _).mp he.expired
  have hlease := hchecks
  simp only [JobRow.checks, Bool.and_eq_true] at hlease
  replace hlease := hlease.1.1.1.1.1.1.1.1.1.2
  unfold JobRow.leaseComplete at hlease
  split at hlease
  · rename_i hnone
    rw [hnone] at hexpires
    cases hexpires
  · rename_i ownerId acquiredAt expiresAt' howner hacquired hexpires'
    obtain rfl := Option.some.inj (hexpires.symm.trans hexpires')
    have hleased : row.2.leasedBy ⟨acquiredAt, row.2.attempt, expiresAt, row.1.id, ownerId, row.1.tenantId⟩ =
        true := JobRow.leasedBy_iff.mpr ⟨he.running, howner, rfl, hacquired, hexpires⟩
    have honly : ∀ other, Joined db other → other.jobKey = row.1 → other = r := fun other hother hsame =>
      hother.eq_of_key hr (hdb.lockstep.jobUnique _ _ hother hr (hsame.trans hkey.symm))
    exact ⟨r, _, hr, hkey, hjob, honly, hdb.lockstep.readable r hr, rfl, rfl, hleased,
      hdb.rows.leases _ _ he.job _ rfl rfl hleased, of_decide_eq_true hle⟩
  · cases hlease

namespace Held

variable {r : DurableRow ρ σ} {lease : JobLease}

omit [Sha256]

theorem tenant (h : Held db at' row r lease) : r.key.tenantId = row.1.tenantId := congrArg Key.tenantId h.jobKey

theorem caseKey (h : Held db at' row r lease) : r.caseKey = ⟨row.1.tenantId, row.2.caseId⟩ := by
  rw [DurableRow.caseKey, h.tenant, ← h.joined.caseId, h.job]

theorem case (h : Held db at' row r lease) :
    db.cases.get ⟨row.1.tenantId, row.2.caseId⟩ = some r.case := h.caseKey ▸ h.joined.case

theorem key (h : Held db at' row r lease) : (⟨lease.tenantId, lease.jobId⟩ : Key) = row.1 := by
  rw [h.tenantId, h.jobId]

theorem attempt (h : Held db at' row r lease) : row.2.attempt = lease.attempt :=
  (JobRow.leasedBy_iff.mp h.leased).2.2.1

theorem acquired (h : Held db at' row r lease) : lease.acquiredAt ≤ at' := by
  have hvalid := h.valid
  simp only [JobLease.valid, Bool.and_eq_true, decide_eq_true_eq] at hvalid
  exact (lt_of_lt_of_le hvalid.2 h.expired).le

theorem version (h : Held db at' row r lease) : r.case.version = row.2.version := h.job ▸ h.readable.version

/-- The lease finds the one reproduction that carries it. -/
theorem find (h : Held db at' row r lease) : ∃ record, rowToRecord r = some record ∧
    findByLease lease db = (.ok (some record), db) := by
  obtain ⟨record, hrecord⟩ := readableRow_iff.mp h.readable
  refine ⟨record, hrecord, ?_⟩
  have hstep : findByLease lease db = ReproForge.find (fun row => row.key.tenantId == lease.tenantId &&
      row.jobKey.id == lease.jobId && row.job.leasedBy lease) db := by
    simp only [findByLease, h.valid]
    rfl
  rw [hstep, ReproForge.find]
  cases hsearch : (durableSelect db).find? _ with
  | none =>
    have hn := List.find?_eq_none.mp hsearch r (mem_durableSelect.mpr h.joined)
    refine absurd ?_ hn
    have hid : r.jobKey.id = lease.jobId := by rw [h.jobKey, h.jobId]
    simp [h.tenant, h.tenantId, hid, h.job, h.leased]
  | some other =>
    have hmatched := List.find?_some hsearch
    simp only [Bool.and_eq_true, beq_iff_eq] at hmatched
    have hkey : other.jobKey = row.1 := by
      have he : other.jobKey = ⟨other.key.tenantId, other.jobKey.id⟩ := rfl
      rw [he, hmatched.1.1, hmatched.1.2, h.key]
    obtain rfl := h.only other (mem_durableSelect.mp (List.mem_of_find?_eq_some hsearch)) hkey
    simp only [hrecord]

end Held

/-! ## A cancelled job -/

omit [Sha256] in
/-- The lifecycle of a running job can be cancelled when that of its case can. -/
theorem cancelRecord_run {r : DurableRow ρ σ} {record : DurableReproductionRecord ρ σ}
    (hrecord : rowToRecord r = some record) (hrow : ReadableRow r) (hs : r.job.state = .running)
    (hcase : canTransition r.case.state .cancelled = true) (hat : datetime at' = true) :
    ∃ cancelled, cancelRecord record at' = some cancelled := by
  obtain ⟨failure, hfailure, -, -, -, -, -, -, rfl, -⟩ := rowToRecord_some.mp hrecord
  obtain ⟨failure', hfailure', hjob⟩ := hrow.job
  obtain rfl := Option.some.inj (hfailure.symm.trans hfailure')
  have hlegal : canTransition r.case.domainState.case.state .cancelled = true := hrow.state ▸ hcase
  have hmoved : ∃ moved, transitionCase r.case.domainState.case .cancelled "Cancellation requested" at' =
      some moved := by
    have hvalid := hrow.case.valid
    simp only [ReproCase.valid, Bool.and_eq_true] at hvalid
    simp [transitionCase, hlegal, ReproCase.valid, TransitionEntry.valid, hvalid, hat]
  have hended : ∃ moved, transitionJob (rowJob r.idempotency.jobId r.job r.job.attempt failure) .cancelled at'
      none .cancelled = some moved := by
    obtain ⟨hattempt, hcaseId, hcreated, -, hid, -, -, -⟩ := jobValid_iff.mp hjob.valid
    simp only [rowJob] at hattempt hcaseId hcreated hid
    simp [transitionJob, rowJob, hs, canTransitionJob, ReproductionJob.valid, hattempt, hcaseId, hcreated, hid, hat]
  obtain ⟨case, hmoved⟩ := hmoved
  obtain ⟨job, hended⟩ := hended
  rw [← Option.isSome_iff_exists]
  simp only [cancelRecord, rowRecord, rowSnapshot, hmoved, hended]
  rfl

/-! ## Ending one lease -/

/-- A lease has ended, and its job is left as `j'`. -/
structure LeaseEnded (db db' : Db ρ σ) (row : Key × JobRow) (j' : JobRow) : Prop where
  now : db'.now = db.now
  tenants : db'.tenants = db.tenants
  auditEvents : db'.auditEvents = db.auditEvents
  jobs : db'.jobs = db.jobs.set row.1 j'
  cases : ∃ c', db'.cases = db.cases.set ⟨row.1.tenantId, row.2.caseId⟩ c'

omit [ResultDocument ρ] [RequestDocument σ] [Sha256] in
theorem createdAt_le_of_checks {key : Key} {j : JobRow} (h : j.checks key = true) : j.createdAt ≤ j.updatedAt := by
  simp only [JobRow.checks, Bool.and_eq_true, decide_eq_true_eq] at h
  tauto

omit [Sha256] in
theorem cancelLeaseInTransaction_run (hdb : Coherent db) (he : Expired db at' row) {r : DurableRow ρ σ}
    {lease : JobLease} (hheld : Held db at' row r lease) (hflag : row.2.cancellationRequestedAt.isSome = true)
    (hat : datetime at' = true) (hjob : row.2.updatedAt ≤ at') (hcase : r.case.updatedAt ≤ at')
    (hversion : row.2.version < maxSafeInteger) (hlegal : canTransition r.case.state .cancelled = true) :
    ∃ reply db', cancelLeaseInTransaction lease at' db = (.ok reply, db') ∧
      LeaseEnded db db' row (row.2.cancelledRunning at') := by
  obtain ⟨record, hrecord, hfind⟩ := hheld.find
  have hrunning : r.job.state = .running := hheld.job ▸ he.running
  obtain ⟨cancelled, hcancel⟩ := cancelRecord_run hrecord hheld.readable hrunning hlegal hat
  have hjobChecks := hdb.rows.jobs _ _ he.job
  have hcaseChecks := hdb.rows.cases _ _ hheld.case
  have hcaseVersion := hheld.version
  obtain ⟨hcaseId, hrecordVersion⟩ := rowToRecord_caseId hrecord
  have hpositive : 1 ≤ row.2.version := by
    have hlower := hheld.readable.stamp.lower
    omega
  have hid : record.caseId = row.2.caseId := by rw [hcaseId, ← hheld.joined.caseId, hheld.job]
  have hselected : ((db.jobs.get ⟨lease.tenantId, lease.jobId⟩).filter (fun j =>
      j.leasedBy lease && j.cancellationRequestedAt.isSome)).map JobRow.version = some row.2.version := by
    rw [hheld.key, he.job]
    simp [Option.filter, hheld.leased, hflag]
  have hsaveCase : saveCase ⟨lease.tenantId, record.caseId⟩ (fun c => c.version == row.2.version)
      (CaseRow.cancelled cancelled at') row.2.version .optimisticConcurrency db =
      (.ok (), { db with
        cases := db.cases.set ⟨row.1.tenantId, row.2.caseId⟩ (r.case.cancelled cancelled at') }) := by
    rw [hheld.tenantId, hid]
    exact saveCase_run hheld.case (by simp [hcaseVersion])
      (caseUpdateAllowed_moved hcaseChecks rfl rfl rfl rfl hcase) (by simp [CaseRow.cancelled, hcaseVersion]) hversion
  have hsaveJob : ∀ t : Db ρ σ, t.jobs = db.jobs →
      saveJob ⟨lease.tenantId, lease.jobId⟩
        (fun j => j.leasedBy lease && j.cancellationRequestedAt.isSome && j.version == row.2.version)
        (JobRow.cancelledRunning at') row.2.version .leaseOwnership t =
      (.ok (), { t with jobs := db.jobs.set row.1 (row.2.cancelledRunning at') }) := by
    intro t ht
    rw [hheld.key, ← ht]
    exact saveJob_run (ht ▸ he.job) (by simp [hheld.leased, hflag])
      (jobUpdateAllowed_cancelled hjobChecks he.running hflag hjob) rfl hversion
  have hrelease : ∀ t : Db ρ σ, t.quotaLedger = db.quotaLedger →
      releaseActiveJobQuota lease.tenantId lease.jobId at' t =
      (.ok (), { t with quotaLedger := releasedQuotas row.1.tenantId row.1.id at' db.quotaLedger }) := by
    intro t ht
    rw [hheld.tenantId, hheld.jobId]
    exact releaseActiveJobQuota_run hdb.rows.ledger he.job (le_trans (createdAt_le_of_checks hjobChecks) hjob) ht
  have hrun : cancelLeaseInTransaction lease at' db = (.ok { cancelled with version := row.2.version + 1 },
      { db with
        cases := db.cases.set ⟨row.1.tenantId, row.2.caseId⟩ (r.case.cancelled cancelled at')
        jobs := db.jobs.set row.1 (row.2.cancelledRunning at')
        quotaLedger := releasedQuotas row.1.tenantId row.1.id at' db.quotaLedger }) := by
    rw [cancelLeaseInTransaction]
    refine bind_ok.mpr ⟨_, _, rfl, bind_ok.mpr ⟨row.2.version, db, ?_, ?_⟩⟩
    · rw [hselected]
      exact returnedVersion_run hversion.le db
    refine bind_ok.mpr ⟨(), db, require_ok.mpr ⟨decide_eq_true hpositive, rfl⟩, bind_ok.mpr ⟨_, db, hfind, ?_⟩⟩
    refine bind_ok.mpr ⟨record, db, demand_ok.mpr ⟨rfl, rfl⟩, bind_ok.mpr ⟨(), db, require_ok.mpr ⟨?_, rfl⟩, ?_⟩⟩
    · rw [hrecordVersion, hcaseVersion, beq_self_eq_true]
    refine bind_ok.mpr ⟨cancelled, db, demand_ok.mpr ⟨hcancel, rfl⟩, bind_ok.mpr ⟨(), _, hsaveCase, ?_⟩⟩
    exact bind_ok.mpr ⟨(), _, hsaveJob _ rfl, bind_ok.mpr ⟨(), _, hrelease _ rfl, rfl⟩⟩
  exact ⟨_, _, hrun, rfl, rfl, rfl, rfl, _, rfl⟩

/-- What `failLease` does with a lease that it finds on its job. -/
theorem failLease_held (hdb : Coherent db) (he : Expired db at' row) {r : DurableRow ρ σ} {lease : JobLease}
    (hheld : Held db at' row r lease) (hat : datetime at' = true) (hversion : row.2.version ≤ maxSafeInteger) :
    failLease lease ⟨at', "LEASE_EXPIRED", at', true⟩ db =
      if row.2.cancellationRequestedAt.isSome then
        (do let _ ← cancelLeaseInTransaction lease at'; pure .cancelled : Statement ρ σ _) db
      else if row.2.attempt < row.2.maxAttempts then
        (do
          saveJob row.1 (fun j => j.leasedBy lease) (JobRow.failed none at' at') row.2.version .leaseOwnership
          advanceCaseVersion row.1.tenantId row.2.caseId row.2.version at'
          require (recoveryMessage row.1 row.2).valid .schema
          insertOutboxEventOrIgnore ⟨row.1.tenantId, recoveryEventId row.1.tenantId row.1.id row.2.attempt⟩
            (recoveryEvent row.1 row.2 at' at')
          pure .requeued : Statement ρ σ _) db
      else
        (do
          saveJob row.1 (fun j => j.leasedBy lease) (JobRow.failed (some exhaustedFailure) at' at') row.2.version
            .leaseOwnership
          advanceCaseVersion row.1.tenantId row.2.caseId row.2.version at'
          releaseActiveJobQuota row.1.tenantId row.1.id at'
          pure .exhausted : Statement ρ σ _) db := by
  have hcode : isFailureCode "LEASE_EXPIRED" = true := by decide +kernel
  have hattempt : row.2.attempt ≤ maxSafeInteger := by
    rw [hheld.attempt]
    exact (leaseValid_bounds hheld.valid).2.trans (by decide)
  have hbudget : row.2.maxAttempts ≤ maxSafeInteger := by
    rw [hdb.rows.budgets _ _ he.job]
    decide
  have hattempt' := integer_some.mpr ⟨rfl, hattempt⟩
  have hbudget' := integer_some.mpr ⟨rfl, hbudget⟩
  have hversion' := integer_some.mpr ⟨rfl, hversion⟩
  have hfound : (db.jobs.get ⟨lease.tenantId, lease.jobId⟩).filter (fun j => j.leasedBy lease) = some row.2 := by
    rw [hheld.key, he.job]
    simp [Option.filter, hheld.leased]
  simp only [failLease, bind_apply, hheld.valid, require_true, hat, hheld.acquired, hcode, le_refl, decide_true,
    Bool.and_true, read_apply, hfound, demand_some]
  split
  · rfl
  · by_cases hlt : row.2.attempt < row.2.maxAttempts
    · have hstored : storedFailure ⟨at', "LEASE_EXPIRED", at', true⟩ row.2.attempt row.2.maxAttempts = none := by
        simp [storedFailure, hlt]
      simp only [bind_apply, hattempt', hbudget', hversion', demand_some, hstored, hlt, if_true, hheld.tenantId,
        hheld.jobId, ← hheld.attempt]
      rfl
    · have hstored : storedFailure ⟨at', "LEASE_EXPIRED", at', true⟩ row.2.attempt row.2.maxAttempts =
          some exhaustedFailure := by
        simp [storedFailure, hlt]
      simp only [bind_apply, hattempt', hbudget', hversion', demand_some, hstored, hlt, if_false, hheld.tenantId,
        hheld.jobId]

omit [ResultDocument ρ] [RequestDocument σ] in
theorem recoveryEvent_checks (hsha : LawfulDigest) {db' : Db ρ σ} (key : Key) (j : JobRow)
    (hat : at' < db'.now + days 30) :
    outboxInsertChecks db' ⟨key.tenantId, recoveryEventId key.tenantId key.id j.attempt⟩
      (recoveryEvent key j at' at') = true := by
  simp [outboxInsertChecks, OutboxRow.checks, recoveryEvent, recoveryMessage, pendingEvent,
    OutboxRow.deliveryState, recoveryEventId_opaque hsha, hat]

omit [ResultDocument ρ] [RequestDocument σ] [Sha256] in
theorem advanceCaseVersion_run {tenantId caseId : String} {c : CaseRow ρ σ}
    (hc : db.cases.get ⟨tenantId, caseId⟩ = some c) (hchecks : c.checks ⟨tenantId, caseId⟩ = true)
    (hat : c.updatedAt ≤ at') (hb : c.version < maxSafeInteger) :
    advanceCaseVersion tenantId caseId c.version at' db =
      (.ok (), { db with cases := db.cases.set ⟨tenantId, caseId⟩ (c.advanced at') }) :=
  saveCase_run hc (beq_self_eq_true _) (caseUpdateAllowed_moved hchecks rfl rfl rfl rfl hat) rfl hb

omit [Sha256] in
/-- The two versions of a job that is not cancelled move first. -/
theorem saveFailed_run {α : Type} (rest : Statement ρ σ α) (hdb : Coherent db) (he : Expired db at' row)
    {r : DurableRow ρ σ} {lease : JobLease} (hheld : Held db at' row r lease) (hrec : Endable db at' row)
    (hnone : row.2.cancellationRequestedAt = none) {stored : Option JobFailure}
    (hstored : stored = none ∨ stored = some exhaustedFailure) :
    (do
      saveJob row.1 (fun j => j.leasedBy lease) (JobRow.failed stored at' at') row.2.version .leaseOwnership
      advanceCaseVersion row.1.tenantId row.2.caseId row.2.version at'
      rest : Statement ρ σ α) db =
      rest { db with
        jobs := db.jobs.set row.1 (row.2.failed stored at' at')
        cases := db.cases.set ⟨row.1.tenantId, row.2.caseId⟩ (r.case.advanced at') } := by
  have hsave : saveJob row.1 (fun j => j.leasedBy lease) (JobRow.failed stored at' at') row.2.version
      .leaseOwnership db = (.ok (), { db with jobs := db.jobs.set row.1 (row.2.failed stored at' at') }) :=
    saveJob_run he.job hheld.leased
      (jobUpdateAllowed_failed (hdb.rows.jobs _ _ he.job) he.running hnone hstored hrec.job) rfl hrec.version
  have hadvance : ∀ t : Db ρ σ, t.cases = db.cases →
      advanceCaseVersion row.1.tenantId row.2.caseId row.2.version at' t =
        (.ok (), { t with cases := db.cases.set ⟨row.1.tenantId, row.2.caseId⟩ (r.case.advanced at') }) := by
    intro t ht
    rw [← hheld.version, ← ht]
    exact advanceCaseVersion_run (ht ▸ hheld.case) (hdb.rows.cases _ _ hheld.case) (hrec.case _ hheld.case)
      (hheld.version ▸ hrec.version)
  rw [bind_apply, hsave]
  simp only [bind_apply]
  rw [hadvance { db with jobs := db.jobs.set row.1 (row.2.failed stored at' at') } rfl]

/-- A recoverable job is moved as its row says. -/
theorem failLease_run (hsha : LawfulDigest) (hdb : Coherent db) (he : Expired db at' row) {r : DurableRow ρ σ}
    {lease : JobLease} (hheld : Held db at' row r lease) (hat : datetime at' = true)
    (hrec : Endable db at' row) :
    ∃ db', failLease lease ⟨at', "LEASE_EXPIRED", at', true⟩ db = (.ok (recoveryDisposition row.2), db') ∧
      LeaseEnded db db' row (recoveredJob at' row.2) := by
  rw [failLease_held hdb he hheld hat hrec.version.le, recoveredJob]
  by_cases hflag : row.2.cancellationRequestedAt.isSome = true
  · have hcancelled : recoveryDisposition row.2 = .cancelled := by simp [recoveryDisposition, hflag]
    obtain ⟨reply, db', hrun, hended⟩ := cancelLeaseInTransaction_run hdb he hheld hflag hat hrec.job
      (hrec.case _ hheld.case) hrec.version (hrec.cancellable hcancelled _ hheld.case)
    rw [if_pos hflag, hcancelled]
    exact ⟨db', bind_ok.mpr ⟨reply, db', hrun, rfl⟩, hended⟩
  · have hnone : row.2.cancellationRequestedAt = none := by simpa using hflag
    rw [if_neg hflag]
    by_cases hlt : row.2.attempt < row.2.maxAttempts
    · have hrequeued : recoveryDisposition row.2 = .requeued := by simp [recoveryDisposition, hnone, hlt]
      rw [if_pos hlt, saveFailed_run _ hdb he hheld hrec hnone (.inl rfl), hrequeued]
      have hvalid : (recoveryMessage row.1 row.2).valid = true := by
        have hcase := hdb.rows.cases _ _ hheld.case
        have hlease := hheld.valid
        simp only [CaseRow.checks, JobLease.valid, Bool.and_eq_true] at hcase hlease
        simp [QueueMessage.valid, recoveryMessage, recoveryEventId_opaque hsha, hcase.1.1.1.1, ← hheld.jobId,
          ← hheld.tenantId, hlease]
      have hevent : ∀ t : Db ρ σ, t.now = db.now → t.jobs.get row.1 = some (row.2.failed none at' at') →
          insertOutboxEventOrIgnore ⟨row.1.tenantId, recoveryEventId row.1.tenantId row.1.id row.2.attempt⟩
            (recoveryEvent row.1 row.2 at' at') t = (.ok (), { t with
              outboxEvents := t.outboxEvents.insert
                ⟨row.1.tenantId, recoveryEventId row.1.tenantId row.1.id row.2.attempt⟩
                (recoveryEvent row.1 row.2 at' at') }) := fun t hnow hj =>
        insertOutboxEventOrIgnore_run (recoveryEvent_checks hsha _ _ (hnow ▸ hrec.event hrequeued))
          (jobExists_iff.mpr ⟨_, hj, rfl⟩)
      exact ⟨_, bind_ok.mpr ⟨(), _, require_ok.mpr ⟨hvalid, rfl⟩,
        bind_ok.mpr ⟨(), _, hevent _ rfl (Table.get_set_self he.job), rfl⟩⟩, rfl, rfl, rfl, rfl, _, rfl⟩
    · have hexhausted : recoveryDisposition row.2 = .exhausted := by simp [recoveryDisposition, hnone, hlt]
      rw [if_neg hlt, saveFailed_run _ hdb he hheld hrec hnone (.inr rfl), hexhausted]
      have hrelease : ∀ t : Db ρ σ, t.quotaLedger = db.quotaLedger →
          releaseActiveJobQuota row.1.tenantId row.1.id at' t =
            (.ok (), { t with quotaLedger := releasedQuotas row.1.tenantId row.1.id at' db.quotaLedger }) :=
        fun t ht => releaseActiveJobQuota_run hdb.rows.ledger he.job
          (le_trans (createdAt_le_of_checks (hdb.rows.jobs _ _ he.job)) hrec.job) ht
      exact ⟨_, bind_ok.mpr ⟨(), _, hrelease _ rfl, rfl⟩, rfl, rfl, rfl, rfl, _, rfl⟩

/-! ## What a lease that ended needed -/

omit [Sha256] in
theorem cancelLeaseInTransaction_legal {r : DurableRow ρ σ} {lease : JobLease} (hheld : Held db at' row r lease)
    {reply : DurableReproductionRecord ρ σ} (h : cancelLeaseInTransaction lease at' db = (.ok reply, db')) :
    canTransition r.case.state .cancelled = true := by
  simp only [cancelLeaseInTransaction, bind_ok, require_ok, read_ok, demand_ok] at h
  obtain ⟨_, _, ⟨rfl, rfl⟩, version, t, hver, _, _, ⟨-, rfl⟩, _, _, hfind, record, _, ⟨rfl, rfl⟩, _, _, -,
    cancelled, _, ⟨hcancel, -⟩, -⟩ := h
  obtain ⟨-, rfl⟩ := demand_ok.mp hver
  obtain ⟨-, other, hother, hkey, -, hrecord⟩ := findByLease_some hfind
  obtain rfl := hheld.only other hother (hkey.trans hheld.key)
  obtain ⟨case, job, hcase, -⟩ := cancelRecord_some hcancel
  obtain ⟨hlegal, -, -⟩ := transitionCase_some hcase
  rw [(rowToRecord_case hrecord).1, hheld.readable.state] at hlegal
  exact hlegal

omit [ResultDocument ρ] [RequestDocument σ] [Sha256] in
theorem updatedAt_le_of_jobUpdate {key : Key} {j j' : JobRow} (h : jobUpdateAllowed key j j' = true) :
    j.updatedAt ≤ j'.updatedAt := by
  simp only [jobUpdateAllowed, successorVersion, Bool.and_eq_true, decide_eq_true_eq] at h
  exact h.1.1.1.2

omit [ResultDocument ρ] [RequestDocument σ] [Sha256] in
theorem updatedAt_le_of_caseUpdate {key : Key} {c c' : CaseRow ρ σ} (h : caseUpdateAllowed key c c' = true) :
    c.updatedAt ≤ c'.updatedAt := by
  simp only [caseUpdateAllowed, successorVersion, Bool.and_eq_true, decide_eq_true_eq] at h
  exact h.1.2

omit [Sha256] in
/-- A job that failed with its case was not ahead of the time of its failure. -/
theorem saveFailed_needs (he : Expired db at' row) {r : DurableRow ρ σ} {lease : JobLease}
    (hheld : Held db at' row r lease) {stored : Option JobFailure} {u u' : Unit} {t : Db ρ σ}
    (hsave : saveJob row.1 (fun j => j.leasedBy lease) (JobRow.failed stored at' at') row.2.version .leaseOwnership
      db = (.ok u, t))
    (hadvance : advanceCaseVersion row.1.tenantId row.2.caseId row.2.version at' t = (.ok u', db')) :
    row.2.updatedAt ≤ at' ∧ r.case.updatedAt ≤ at' ∧ row.2.version < maxSafeInteger ∧ db'.now = db.now := by
  obtain ⟨j, hj, -, hjobAllowed, hbound, rfl⟩ := saveJob_ok hsave
  obtain ⟨c, hc, -, hcaseAllowed, -, rfl⟩ := advanceCaseVersion_ok hadvance
  obtain rfl := Option.some.inj (he.job.symm.trans hj)
  obtain rfl := Option.some.inj (hheld.case.symm.trans hc)
  exact ⟨updatedAt_le_of_jobUpdate hjobAllowed, updatedAt_le_of_caseUpdate hcaseAllowed, hbound, rfl⟩

/-- A lease that the recovery ended could be ended. -/
theorem failLease_endable (hdb : Coherent db) (he : Expired db at' row) {r : DurableRow ρ σ} {lease : JobLease}
    (hheld : Held db at' row r lease) (hat : datetime at' = true) {disposition : LeaseFailureDisposition}
    (h : failLease lease ⟨at', "LEASE_EXPIRED", at', true⟩ db = (.ok disposition, db')) : Endable db at' row := by
  have hcase : ∀ {P : CaseRow ρ σ → Prop}, P r.case →
      ∀ c, db.cases.get ⟨row.1.tenantId, row.2.caseId⟩ = some c → P c := by
    intro P hp c hc
    obtain rfl := Option.some.inj (hheld.case.symm.trans hc)
    exact hp
  have hbound : row.2.version ≤ maxSafeInteger := hheld.version ▸ hheld.readable.stamp.upper
  rw [failLease_held hdb he hheld hat hbound] at h
  by_cases hflag : row.2.cancellationRequestedAt.isSome = true
  · rw [if_pos hflag] at h
    obtain ⟨reply, t, hcancel, -⟩ := bind_ok.mp h
    have hlegal := cancelLeaseInTransaction_legal hheld hcancel
    obtain ⟨j, c, cancelled, -, -, hw⟩ := cancelLeaseInTransaction_ok hheld.valid hat hheld.acquired hcancel
    have hj : row.2 = j := Option.some.inj (he.job.symm.trans (hheld.key ▸ hw.job))
    subst hj
    have hc : r.case = c := Option.some.inj (hheld.case.symm.trans (hheld.tenantId ▸ hw.case))
    subst hc
    exact {
      job := updatedAt_le_of_jobUpdate hw.jobAllowed
      case := hcase (updatedAt_le_of_caseUpdate hw.caseAllowed)
      version := hw.bounded
      cancellable := fun _ => hcase hlegal
      event := fun hq => by simp [recoveryDisposition, hflag] at hq }
  · have hnone : row.2.cancellationRequestedAt = none := by simpa using hflag
    rw [if_neg hflag] at h
    by_cases hlt : row.2.attempt < row.2.maxAttempts
    · rw [if_pos hlt] at h
      simp only [bind_ok, require_ok] at h
      obtain ⟨_, t, hsave, _, t', hadvance, _, _, ⟨-, rfl⟩, _, t'', hevent, -⟩ := h
      obtain ⟨hjobAt, hcaseAt, hversion, hnow⟩ := saveFailed_needs he hheld hsave hadvance
      have hchecks := (insertOutboxEventOrIgnore_ok hevent).1
      simp only [outboxInsertChecks, Bool.and_eq_true, decide_eq_true_eq] at hchecks
      exact {
        job := hjobAt
        case := hcase hcaseAt
        version := hversion
        cancellable := fun hc => by simp [recoveryDisposition, hnone, hlt] at hc
        event := fun _ => hnow ▸ hchecks.2 }
    · rw [if_neg hlt] at h
      simp only [bind_ok] at h
      obtain ⟨_, t, hsave, _, t', hadvance, -⟩ := h
      obtain ⟨hjobAt, hcaseAt, hversion, -⟩ := saveFailed_needs he hheld hsave hadvance
      exact {
        job := hjobAt
        case := hcase hcaseAt
        version := hversion
        cancellable := fun hc => by simp [recoveryDisposition, hnone, hlt] at hc
        event := fun hq => by simp [recoveryDisposition, hnone, hlt] at hq }

/-! ## Recovering one lease -/

/-- The lease of a row has been recovered: its job, its case and one audit entry moved. -/
structure LeaseRecovered (db db' : Db ρ σ) (at' : Instant) (row : Key × JobRow) : Prop where
  now : db'.now = db.now
  tenants : db'.tenants = db.tenants
  fresh : db.auditEvents.get (recoveryAuditKey row) = none
  auditEvents : db'.auditEvents =
    db.auditEvents.insert (recoveryAuditKey row) (auditRow (recoveryAudit at' row))
  jobs : db'.jobs = db.jobs.set row.1 (recoveredJob at' row.2)
  cases : ∃ c', db'.cases = db.cases.set ⟨row.1.tenantId, row.2.caseId⟩ c'

theorem recoverLease_held {r : DurableRow ρ σ} {lease : JobLease} (hheld : Held db at' row r lease) :
    recoverLease at' row db =
      (do
        let disposition ← failLease lease ⟨at', "LEASE_EXPIRED", at', true⟩
        appendAudit { recoveryAudit at' row with
          metadata := [("attempt", .number row.2.attempt), ("disposition", .text disposition.text)]
          outcome := if disposition = .exhausted then .failure else .success }
        pure disposition : Statement ρ σ _) db := by
  obtain ⟨-, howner, hattempt, hacquired, hexpires⟩ := JobRow.leasedBy_iff.mp hheld.leased
  have hbound : row.2.attempt ≤ maxSafeInteger := by
    rw [hattempt]
    exact (leaseValid_bounds hheld.valid).2.trans (by decide)
  have hlease : (⟨lease.acquiredAt, row.2.attempt, lease.expiresAt, row.1.id, lease.ownerId,
      row.1.tenantId⟩ : JobLease) = lease := by
    rw [hattempt, ← hheld.jobId, ← hheld.tenantId]
  simp only [recoverLease, bind_apply, hacquired, hexpires, howner, demand_some, integer_some.mpr ⟨rfl, hbound⟩,
    hlease, hheld.valid, require_true]
  rfl

theorem recoveryAudit_valid (hsha : LawfulDigest) {r : DurableRow ρ σ} {lease : JobLease}
    (hheld : Held db at' row r lease) (hat : datetime at' = true) : (recoveryAudit at' row).valid = true := by
  have hlease := hheld.valid
  simp only [JobLease.valid, Bool.and_eq_true] at hlease
  have hid : opaqueId row.1.id = true := hheld.jobId ▸ hlease.1.1.1.2
  have htenant : opaqueId row.1.tenantId = true := hheld.tenantId ▸ hlease.1.2
  have hconstant : auditAction "job.lease-recovered" = true ∧ opaqueId "operator:lease-recovery" = true := by
    decide +kernel
  have hattempt : (0 < utf16Length "attempt" ∧ utf16Length "attempt" ≤ 64) ∧
      forbiddenAuditKey "attempt" = false := by decide +kernel
  have hdisposition : (0 < utf16Length "disposition" ∧ utf16Length "disposition" ≤ 64) ∧
      forbiddenAuditKey "disposition" = false := by decide +kernel
  have htext : utf16Length (recoveryDisposition row.2).text ≤ 512 := by
    cases recoveryDisposition row.2 <;> decide +kernel
  simp [AuditEvent.valid, recoveryAudit, hconstant, recoveryAuditEventId_opaque hsha, hattempt, hdisposition,
    MetadataValue.valid, htext, hat, hid, htenant]

omit [ResultDocument ρ] [RequestDocument σ] [Sha256] in
theorem appendAudit_ok_iff {event : AuditEvent} (hvalid : event.valid = true) {u : Unit} :
    appendAudit event db = (.ok u, db') ↔
      (db.auditEvents.get (auditKey event) = none ∧ (db.tenants.get event.tenantId).isSome = true ∧
        event.occurredAt < db.now + days 365) ∧
      db' = { db with auditEvents := db.auditEvents.insert (auditKey event) (auditRow event) } := by
  have hid : opaqueId event.eventId = true := by
    simp only [AuditEvent.valid, Bool.and_eq_true] at hvalid
    exact hvalid.1.1.1.1.2
  simp only [appendAudit, hvalid, bind_apply, require_true, insertAuditEvent, auditKey, auditRow, hid,
    Bool.and_true]
  split
  · rename_i hchecks
    simp only [Bool.and_eq_true, Option.isNone_iff_eq_none, decide_eq_true_eq] at hchecks
    simp only [hchecks, Prod.mk.injEq, true_and]
    exact eq_comm
  · rename_i hchecks
    simp only [Bool.and_eq_true, Option.isNone_iff_eq_none, decide_eq_true_eq] at hchecks
    simp only [Prod.mk.injEq, reduceCtorEq, false_and, false_iff]
    rintro ⟨⟨hfresh, htenant, hretained⟩, -⟩
    exact hchecks ⟨⟨hfresh, htenant⟩, hretained⟩

/-- A recoverable lease is recovered as its row says. -/
theorem recoverLease_run (hsha : LawfulDigest) (hdb : Coherent db) (he : Expired db at' row)
    (hat : datetime at' = true) (hrec : Recoverable db at' row) :
    ∃ db', recoverLease at' row db = (.ok (recoveryDisposition row.2), db') ∧ LeaseRecovered db db' at' row := by
  obtain ⟨r, lease, hheld⟩ := hdb.held he
  obtain ⟨t, hfail, hended⟩ := failLease_run hsha hdb he hheld hat hrec.ended
  have haudit : appendAudit (recoveryAudit at' row) t = (.ok (), _) :=
    (appendAudit_ok_iff (recoveryAudit_valid hsha hheld hat)).mpr
    ⟨⟨hended.auditEvents ▸ hrec.fresh, hended.tenants ▸ hrec.tenant, hended.now ▸ hrec.retained⟩, rfl⟩
  rw [recoverLease_held hheld]
  refine ⟨_, bind_ok.mpr ⟨_, t, hfail, bind_ok.mpr ⟨(), _, haudit, rfl⟩⟩, ?_⟩
  exact {
    now := hended.now
    tenants := hended.tenants
    fresh := hrec.fresh
    auditEvents := by rw [hended.auditEvents]; rfl
    jobs := hended.jobs
    cases := hended.cases }

/-- A lease that was recovered was recoverable. -/
theorem recoverLease_recoverable (hsha : LawfulDigest) (hdb : Coherent db) (he : Expired db at' row)
    (hat : datetime at' = true) {disposition : LeaseFailureDisposition}
    (h : recoverLease at' row db = (.ok disposition, db')) : Recoverable db at' row := by
  obtain ⟨r, lease, hheld⟩ := hdb.held he
  rw [recoverLease_held hheld] at h
  simp only [bind_ok, pure_ok] at h
  obtain ⟨d, t, hfail, _, t', haudit, -, -⟩ := h
  have hended := failLease_endable hdb he hheld hat hfail
  obtain ⟨t₀, hrun, hmoved⟩ := failLease_run hsha hdb he hheld hat hended
  rw [hfail] at hrun
  obtain ⟨hd, rfl⟩ := Prod.mk.inj hrun
  obtain rfl := Except.ok.inj hd
  obtain ⟨⟨hfresh, htenant, hretained⟩, -⟩ :=
    (appendAudit_ok_iff (recoveryAudit_valid hsha hheld hat)).mp haudit
  exact ⟨hended, hmoved.now ▸ hretained, hmoved.tenants ▸ htenant, hmoved.auditEvents ▸ hfresh⟩

/-! ## The other selected jobs -/

theorem Coherent.recovered (hdb : Coherent db) {disposition : LeaseFailureDisposition}
    (h : recoverLease at' row db = (.ok disposition, db')) : Coherent db' := by
  obtain ⟨lease, t, key, audit, hfail, -, hd⟩ := recoverLease_ok h
  have hchange : Change (.clock 0 : Event ρ σ) db t := hfail.change
  have hentry : Change (.clock 0 : Event ρ σ) t db' := .audit key audit hd
  have hnone : ∀ (s : Db ρ σ) record, (Event.clock 0 : Event ρ σ).edits record → Anchored s record :=
    fun _ _ he => he.elim
  obtain ⟨hlock, -⟩ := hchange.lockstep hdb.lockstep (hnone db)
  exact ⟨(hentry.lockstep hlock (hnone t)).1, (Write.change hentry).rowsFit ((Write.change hchange).rowsFit hdb.rows)⟩

omit [Sha256] in
/-- Two jobs belong to two cases. -/
theorem Coherent.caseKey_ne (hdb : Coherent db) (he : Expired db at' row) {other : Key × JobRow}
    (ho : Expired db at' other) (hne : other.1 ≠ row.1) :
    (⟨other.1.tenantId, other.2.caseId⟩ : Key) ≠ ⟨row.1.tenantId, row.2.caseId⟩ := by
  obtain ⟨r, lease, hheld⟩ := hdb.held he
  obtain ⟨r', lease', hheld'⟩ := hdb.held ho
  intro hsame
  have hkey := hdb.lockstep.caseUnique r' r hheld'.joined hheld.joined
    (hheld'.caseKey.trans (hsame.trans hheld.caseKey.symm))
  obtain rfl := hheld'.joined.eq_of_key hheld.joined hkey
  exact hne (hheld'.jobKey.symm.trans hheld.jobKey)

omit [ResultDocument ρ] [RequestDocument σ] in
theorem LeaseRecovered.expired_other (h : LeaseRecovered db db' at' row) {other : Key × JobRow}
    (ho : Expired db at' other) (hne : other.1 ≠ row.1) : Expired db' at' other := by
  refine ⟨?_, ho.running, ho.expired⟩
  rw [h.jobs, Table.get_set_other _ _ hne]
  exact ho.job

/-- A recovery leaves every other selected job as recoverable as it was, unless
it took the identifier of its audit entry. -/
theorem LeaseRecovered.recoverable_other (hdb : Coherent db) (he : Expired db at' row)
    (h : LeaseRecovered db db' at' row) {other : Key × JobRow} (ho : Expired db at' other)
    (hne : other.1 ≠ row.1) : Recoverable db' at' other ↔
      Recoverable db at' other ∧ recoveryAuditKey other ≠ recoveryAuditKey row := by
  obtain ⟨c', hcases⟩ := h.cases
  have hcase : db'.cases.get ⟨other.1.tenantId, other.2.caseId⟩ = db.cases.get ⟨other.1.tenantId, other.2.caseId⟩ := by
    rw [hcases, Table.get_set_other _ _ (hdb.caseKey_ne he ho hne)]
  constructor
  · intro hrec
    have hfresh := hrec.fresh
    rw [h.auditEvents] at hfresh
    have hkey : recoveryAuditKey other ≠ recoveryAuditKey row := by
      intro hsame
      rw [hsame, Table.get_insert_self h.fresh] at hfresh
      cases hfresh
    rw [Table.get_insert_other hkey] at hfresh
    obtain ⟨hjob, hcaseAt, hversion, hlegal, hevent⟩ := hrec.ended
    refine ⟨⟨⟨hjob, hcase ▸ hcaseAt, hversion, hcase ▸ hlegal, h.now ▸ hevent⟩, ?_, ?_, hfresh⟩, hkey⟩
    · exact h.now ▸ hrec.retained
    · exact h.tenants ▸ hrec.tenant
  · rintro ⟨hrec, hkey⟩
    obtain ⟨hjob, hcaseAt, hversion, hlegal, hevent⟩ := hrec.ended
    refine ⟨⟨hjob, hcase ▸ hcaseAt, hversion, hcase ▸ hlegal, h.now ▸ hevent⟩, ?_, ?_, ?_⟩
    · exact h.now ▸ hrec.retained
    · exact h.tenants ▸ hrec.tenant
    · rw [h.auditEvents, Table.get_insert_other hkey]
      exact hrec.fresh

/-! ## All the selected jobs -/

/-- A batch of recoveries succeeds just when each of its leases is recoverable
and no two of them share the identifier of their audit entries. -/
theorem recoverAll_ok_iff (hsha : LawfulDigest) (hat : datetime at' = true) {rows : List (Key × JobRow)}
    (hdb : Coherent db) (hselected : ∀ row ∈ rows, Expired db at' row) (hkeys : (rows.map Prod.fst).Nodup) :
    (∃ dispositions db', forEach (recoverLease at') rows db = (.ok dispositions, db')) ↔
      (∀ row ∈ rows, Recoverable db at' row) ∧ (rows.map recoveryAuditKey).Nodup := by
  induction rows generalizing db with
  | nil => simp [forEach_nil_ok]
  | cons row rest ih =>
    rw [List.map_cons, List.nodup_cons] at hkeys
    have he := hselected row List.mem_cons_self
    have hrest : ∀ other ∈ rest, Expired db at' other ∧ other.1 ≠ row.1 := by
      intro other hmem
      refine ⟨hselected other (List.mem_cons_of_mem row hmem), ?_⟩
      rintro hsame
      exact hkeys.1 (List.mem_map.mpr ⟨other, hmem, hsame⟩)
    -- once the first lease is recovered, the rest is a batch in the database that it leaves
    have htail : ∀ t, recoverLease at' row db = (.ok (recoveryDisposition row.2), t) → LeaseRecovered db t at' row →
        ((∃ dispositions db', forEach (recoverLease at') rest t = (.ok dispositions, db')) ↔
          (∀ other ∈ rest, Recoverable db at' other ∧ recoveryAuditKey other ≠ recoveryAuditKey row) ∧
            (rest.map recoveryAuditKey).Nodup) := by
      intro t hrun hmoved
      rw [ih (hdb.recovered hrun) (fun other hmem => hmoved.expired_other (hrest other hmem).1 (hrest other hmem).2)
        hkeys.2]
      refine and_congr_left fun _ => forall₂_congr fun other hmem => ?_
      exact hmoved.recoverable_other hdb he (hrest other hmem).1 (hrest other hmem).2
    rw [List.map_cons, List.nodup_cons]
    constructor
    · rintro ⟨dispositions, db', hloop⟩
      obtain ⟨d, t, ds, hhead, hloop', -⟩ := forEach_cons_ok.mp hloop
      have hrec := recoverLease_recoverable hsha hdb he hat hhead
      obtain ⟨t', hrun, hmoved⟩ := recoverLease_run hsha hdb he hat hrec
      obtain rfl := (Prod.mk.inj (hhead.symm.trans hrun)).2
      obtain ⟨hall, hnodup⟩ := (htail t hrun hmoved).mp ⟨ds, db', hloop'⟩
      refine ⟨?_, ?_, hnodup⟩
      · intro other hmem
        rcases List.mem_cons.mp hmem with rfl | hmem
        · exact hrec
        · exact (hall other hmem).1
      · intro hmem
        obtain ⟨other, hmem, hsame⟩ := List.mem_map.mp hmem
        exact (hall other hmem).2 hsame
    · rintro ⟨hall, hfirst, hnodup⟩
      obtain ⟨t, hrun, hmoved⟩ := recoverLease_run hsha hdb he hat (hall row List.mem_cons_self)
      obtain ⟨ds, db', hloop⟩ := (htail t hrun hmoved).mpr ⟨fun other hmem =>
        ⟨hall other (List.mem_cons_of_mem row hmem), fun hsame =>
          hfirst (List.mem_map.mpr ⟨other, hmem, hsame⟩)⟩, hnodup⟩
      exact ⟨_, db', forEach_cons_ok.mpr ⟨_, t, ds, hrun, hloop, rfl⟩⟩

/-- What a batch that succeeded did to its jobs, and to all others. -/
structure BatchRecovered (db db' : Db ρ σ) (at' : Instant) (rows : List (Key × JobRow)) : Prop where
  each : ∀ row ∈ rows, Recovered db db' at' row
  jobs : ∀ key, key ∉ rows.map Prod.fst → db'.jobs.get key = db.jobs.get key
  entries : ∀ key, key ∉ rows.map recoveryAuditKey → db'.auditEvents.get key = db.auditEvents.get key

theorem recoverAll_recovered (hsha : LawfulDigest) (hat : datetime at' = true) {rows : List (Key × JobRow)}
    (hdb : Coherent db) (hselected : ∀ row ∈ rows, Expired db at' row) (hkeys : (rows.map Prod.fst).Nodup)
    {dispositions : List LeaseFailureDisposition}
    (h : forEach (recoverLease at') rows db = (.ok dispositions, db')) : BatchRecovered db db' at' rows := by
  have hall := (recoverAll_ok_iff hsha hat hdb hselected hkeys).mp ⟨dispositions, db', h⟩
  induction rows generalizing db dispositions with
  | nil =>
    obtain ⟨-, rfl⟩ := forEach_nil_ok.mp h
    exact ⟨by simp, fun _ _ => rfl, fun _ _ => rfl⟩
  | cons row rest ih =>
    obtain ⟨hrecoverable, hentries⟩ := hall
    rw [List.map_cons, List.nodup_cons] at hkeys hentries
    have he := hselected row List.mem_cons_self
    have hne : ∀ other ∈ rest, other.1 ≠ row.1 := fun other hmem hsame =>
      hkeys.1 (List.mem_map.mpr ⟨other, hmem, hsame⟩)
    have hentry : ∀ other ∈ rest, recoveryAuditKey other ≠ recoveryAuditKey row := fun other hmem hsame =>
      hentries.1 (List.mem_map.mpr ⟨other, hmem, hsame⟩)
    obtain ⟨d, t, ds, hhead, hloop, -⟩ := forEach_cons_ok.mp h
    obtain ⟨t', hrun, hmoved⟩ := recoverLease_run hsha hdb he hat (hrecoverable row List.mem_cons_self)
    obtain rfl := (Prod.mk.inj (hhead.symm.trans hrun)).2
    have hselected' : ∀ other ∈ rest, Expired t at' other := fun other hmem =>
      hmoved.expired_other (hselected other (List.mem_cons_of_mem row hmem)) (hne other hmem)
    have hdb' := hdb.recovered hhead
    have hbatch := ih hdb' hselected' hkeys.2 hloop
      ((recoverAll_ok_iff hsha hat hdb' hselected' hkeys.2).mp ⟨ds, db', hloop⟩)
    constructor
    · intro other hmem
      rcases List.mem_cons.mp hmem with rfl | hmem
      · refine ⟨?_, hmoved.fresh, ?_⟩
        · rw [hbatch.jobs _ hkeys.1, hmoved.jobs]
          exact Table.get_set_self he.job
        · rw [hbatch.entries _ hentries.1, hmoved.auditEvents]
          exact Table.get_insert_self hmoved.fresh
      · obtain ⟨hjob, hfresh, haudit⟩ := hbatch.each other hmem
        refine ⟨hjob, ?_, haudit⟩
        rwa [hmoved.auditEvents, Table.get_insert_other (hentry other hmem)] at hfresh
    · intro key hkey
      rw [List.map_cons, List.mem_cons, not_or] at hkey
      rw [hbatch.jobs key hkey.2, hmoved.jobs, Table.get_set_other _ _ hkey.1]
    · intro key hkey
      rw [List.map_cons, List.mem_cons, not_or] at hkey
      rw [hbatch.entries key hkey.2, hmoved.auditEvents, Table.get_insert_other hkey.1]

/-- The `WHERE` clause of the selection, and the rows that it passes over. -/
def expiredJob (at' : Instant) (locked : List Key) (key : Key) (j : JobRow) : Bool :=
  j.state == .running && j.leaseExpiresAt.any (· ≤ at') && !locked.contains key

section selection

variable {limit : Nat} {locked : List Key}

omit [ResultDocument ρ] [RequestDocument σ] [Sha256]

theorem mem_expiredLeases (h : row ∈ expiredLeases db at' limit locked) :
    row ∈ db.jobs.select (expiredJob at' locked) := List.mem_mergeSort.mp (List.mem_of_mem_take h)

/-- A limit that no selection reaches leaves none of the expired leases out. -/
theorem mem_expiredLeases_of_count (hlimit : db.jobs.count (expiredJob at' locked) ≤ limit)
    (h : row ∈ db.jobs.select (expiredJob at' locked)) : row ∈ expiredLeases db at' limit locked := by
  have hlength : ((db.jobs.select (expiredJob at' locked)).mergeSort expiredBefore).length ≤ limit := by
    rw [List.length_mergeSort]
    exact hlimit
  show row ∈ ((db.jobs.select (expiredJob at' locked)).mergeSort expiredBefore).take limit
  rw [List.take_of_length_le hlength]
  exact List.mem_mergeSort.mpr h

theorem expiredLeases_map_nodup {β : Type} (f : Key × JobRow → β)
    (h : ((db.jobs.select (expiredJob at' locked)).map f).Nodup) :
    ((expiredLeases db at' limit locked).map f).Nodup := by
  refine List.Nodup.sublist ((List.take_sublist limit _).map f) ?_
  exact ((List.mergeSort_perm _ expiredBefore).map f).nodup_iff.mpr h

theorem expired_of_mem (h : row ∈ expiredLeases db at' limit locked) : Expired db at' row := by
  obtain ⟨hjob, hwhere⟩ := Table.mem_select.mp (mem_expiredLeases h)
  simp only [expiredJob, Bool.and_eq_true, beq_iff_eq] at hwhere
  exact ⟨hjob, hwhere.1.1, hwhere.1.2⟩

end selection

omit [ResultDocument ρ] [RequestDocument σ] [Sha256] in
/-- An operation whose attempts run replies what its transaction replies. -/
theorem runSerializableTransaction_runs {α : Type} {operation : Statement ρ σ α} {a : α} :
    runSerializableTransaction 3 [] operation db = (.ok a, db') ↔ operation db = (.ok a, db') := by
  constructor
  · exact runSerializableTransaction_ok
  · intro h
    rw [runSerializableTransaction]
    simp only [List.headD_nil, Attempt.transaction, atomically_ok.mpr h]

/-- A recovery leaves no selected job behind just when each of them is recoverable. -/
theorem Coherent.recoveryIsolated_iff (hsha : LawfulDigest) (hdb : Coherent db) (input : RecoverInput)
    (locked : List Key) : RecoveryIsolated db input locked ↔ AllRecoverable db input locked := by
  refine forall_congr' fun haccepted => ?_
  have hat : datetime input.at' = true := by
    simp only [RecoverInput.accepted, Bool.and_eq_true] at haccepted
    exact haccepted.1.1
  have hselected : ∀ row ∈ expiredLeases db input.at' input.limit locked, Expired db input.at' row :=
    fun row hmem => expired_of_mem hmem
  have hkeys : ((expiredLeases db input.at' input.limit locked).map Prod.fst).Nodup :=
    expiredLeases_map_nodup Prod.fst (db.jobs.select_keys_nodup _)
  rw [← recoverAll_ok_iff hsha hat hdb hselected hkeys]
  simp only [runSerializableTransaction_runs, recoverExpiredLeases, bind_ok, require_ok, read_ok, pure_ok]
  constructor
  · rintro ⟨summary, db', ⟨_, _, ⟨-, rfl⟩, _, _, ⟨rfl, rfl⟩, ds, t, hloop, -, rfl⟩, -⟩
    exact ⟨ds, _, hloop⟩
  · rintro ⟨ds, db', hloop⟩
    refine ⟨_, db', ⟨(), db, ⟨haccepted, rfl⟩, db, db, ⟨rfl, rfl⟩, ds, db', hloop, rfl, rfl⟩, ?_⟩
    have hbatch := recoverAll_recovered hsha hat hdb hselected hkeys hloop
    exact ⟨fun row hmem => .inl (hbatch.each row hmem), hbatch.entries⟩

theorem world_coherent {now : Instant} {tenants : Table String TenantRow} {actions : List (Action ρ σ)}
    (h : Runs.Guarded World.step World.Permitted actions (World.initial now tenants)) :
    Coherent (Runs.run World.step actions (World.initial now tenants)).db :=
  ⟨(world_sound h).lockstep, world_rowsFit now tenants actions⟩

/-- In every database that is reached, a recovery moves or skips each job on its
own exactly when every job that it selects is recoverable. -/
theorem recovery_isolation (hsha : LawfulDigest) {now : Instant} {tenants : Table String TenantRow}
    {actions : List (Action ρ σ)}
    (h : Runs.Guarded World.step World.Permitted actions (World.initial now tenants)) (input : RecoverInput)
    (locked : List Key) :
    RecoveryIsolated (Runs.run World.step actions (World.initial now tenants)).db input locked ↔
      AllRecoverable (Runs.run World.step actions (World.initial now tenants)).db input locked :=
  (world_coherent h).recoveryIsolated_iff hsha input locked

end ReproForge

/-! ## A host whose clock is ahead -/

namespace ReproForge.Sample.Recovery

open KeyedTable Sample

def zeros : String := "0000000000000000000000000000000000000000000000000000000000000000"

/-- The digests of the two leases that are recovered. -/
def digest (text : String) : String :=
  if text = "acme:job-1:1" then "a7eb647331a7d03cf07d04fe72e009ac7afbb970d2b4390e97613326599487f3"
  else if text = "acme:job-2:1" then "10c263b72b9782cceb8ad31b137f31661964cb04c287729ee020f6cd1aff728a"
  else zeros

scoped instance (priority := 2000) : Sha256 := ⟨digest⟩

theorem digest_lawful : LawfulDigest := by
  intro text
  show hexDigest 64 (digest text) = true
  unfold digest
  split
  · decide +kernel
  · split <;> decide +kernel

/-- Two workers claim a job each. -/
def claims : List (Action Empty Empty) :=
  [.event first, .event second,
    .event (.call [] (.claimLease ⟨opening + 1000, "job-1", 60, "worker-1", "acme"⟩)),
    .event (.call [] (.claimLease ⟨opening + 1000, "job-2", 60, "worker-2", "acme"⟩))]

/-- The cancellation of the first job is stamped by a host a minute ahead. -/
def lateCancellation : List (Action Empty Empty) :=
  claims ++
    [.event (.call [] (.requestCancellation ⟨"caller", "caller", "acme"⟩ "job-1" (opening + 120000)))]

def sweep : RecoverInput := ⟨opening + 90000, 10⟩

theorem lateCancellation_permitted :
    Runs.Guarded World.step World.Permitted lateCancellation (World.initial opening tenants) :=
  ⟨fun _ h => h.elim, fun _ h => h.elim, fun _ h => h.elim, fun _ h => h.elim, fun _ h => h.elim, trivial⟩

/-- Every expired lease of the database is recoverable, each under an audit entry of its own. -/
def Clear (db : Db Empty Empty) : Prop :=
  (∀ row ∈ db.jobs.select (expiredJob sweep.at' []), Recoverable db sweep.at' row) ∧
    ((db.jobs.select (expiredJob sweep.at' [])).map recoveryAuditKey).Nodup

/-- Some expired lease that the sweep selects is not recoverable. -/
def Blocked (db : Db Empty Empty) : Prop :=
  db.jobs.count (expiredJob sweep.at' []) ≤ sweep.limit ∧
    ∃ row ∈ db.jobs.select (expiredJob sweep.at' []), ¬ Recoverable db sweep.at' row

instance (db : Db Empty Empty) : Decidable (Clear db) := by
  unfold Clear
  infer_instance

instance (db : Db Empty Empty) : Decidable (Blocked db) := by
  unfold Blocked
  infer_instance

theorem Clear.allRecoverable {db : Db Empty Empty} (h : Clear db) : AllRecoverable db sweep [] :=
  fun _ => ⟨fun row hmem => h.1 row (mem_expiredLeases hmem), expiredLeases_map_nodup _ h.2⟩

theorem Blocked.not_allRecoverable {db : Db Empty Empty} (h : Blocked db) : ¬ AllRecoverable db sweep [] := by
  obtain ⟨hcount, row, hmem, hnot⟩ := h
  intro hall
  exact hnot ((hall (by decide)).1 row (mem_expiredLeases_of_count hcount hmem))

theorem clear_then_blocked :
    Clear (Runs.run World.step claims (World.initial opening tenants)).db ∧
      Blocked (Runs.run World.step lateCancellation (World.initial opening tenants)).db := by
  decide +kernel

end ReproForge.Sample.Recovery

namespace ReproForge

open Sample Sample.Recovery

theorem recovery_isolation_sample :
    RecoveryIsolated (Runs.run World.step claims (World.initial opening tenants)).db sweep [] := by
  have hpermitted := (Runs.guarded_append.mp lateCancellation_permitted).1
  exact (recovery_isolation digest_lawful hpermitted sweep []).mpr clear_then_blocked.1.allRecoverable

/-- One cancellation that is stamped later than the sweep keeps the other job,
whose lease has expired too, from being recovered. -/
theorem recovery_blocked :
    ¬ ∀ (actions : List (Action Empty Empty)) (input : RecoverInput) (locked : List Key),
      Runs.Guarded World.step World.Permitted actions (World.initial opening tenants) →
        RecoveryIsolated (Runs.run World.step actions (World.initial opening tenants)).db input locked := by
  intro hclaim
  have hcoherent := world_coherent lateCancellation_permitted
  exact clear_then_blocked.2.not_allRecoverable ((hcoherent.recoveryIsolated_iff digest_lawful sweep []).mp
    (hclaim lateCancellation sweep [] lateCancellation_permitted))

end ReproForge
