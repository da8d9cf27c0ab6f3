import ReproForge.JobProgress
import ReproForge.Readability

/-!
# Cases and jobs in lockstep

Every case has one joined row, every joined row is readable, and every event
moves the version of a case and the version of its job by the same amount.
Records reach the operations that store them through a client that found them
first and changed only what the services change.
-/
namespace ReproForge

open KeyedTable Transactions Transactions.Tx Relation

variable {ρ σ : Type}

/-! ## Joined rows -/

theorem Joined.eq_of_key {db : Db ρ σ} {row other : DurableRow ρ σ} (hrow : Joined db row)
    (hother : Joined db other) (hkey : row.key = other.key) : row = other := by
  obtain ⟨key, i, c, j⟩ := row
  obtain ⟨key', i', c', j'⟩ := other
  simp only at hkey
  subst hkey
  have hi : i = i' := Option.some.inj (hrow.idempotency.symm.trans hother.idempotency)
  subst hi
  have hc : c = c' := Option.some.inj (hrow.case.symm.trans hother.case)
  have hj : j = j' := Option.some.inj (hrow.job.symm.trans hother.job)
  rw [hc, hj]

/-- Two rows under one anchor belong to one reproduction. -/
theorem keys_of_anchor {row other : DurableRow ρ σ} (h : row.anchor = other.anchor) :
    row.key = other.key ∧ row.caseKey = other.caseKey ∧ row.jobKey = other.jobKey := by
  obtain ⟨⟨tenantId, callerId, idempotencyKey⟩, i, c, j⟩ := row
  obtain ⟨⟨tenantId', callerId', idempotencyKey'⟩, i', c', j'⟩ := other
  simp only [DurableRow.anchor, Anchor.mk.injEq] at h
  obtain ⟨hcaller, hcase, -, -, hidempotency, hjob, -, -, -, -, -, htenant⟩ := h
  simp [DurableRow.caseKey, DurableRow.jobKey, hcaller, hcase, hidempotency, hjob, htenant]

/-- Every row is still there, and its two versions moved together. -/
def RowsKept (db db' : Db ρ σ) : Prop :=
  ∀ row, Joined db row → ∃ row', Joined db' row' ∧ row'.anchor = row.anchor ∧
    ∃ n, row'.case.version = row.case.version + n ∧ row'.job.version = row.job.version + n

theorem RowsKept.refl (db : Db ρ σ) : RowsKept db db :=
  fun row hrow => ⟨row, hrow, rfl, 0, rfl, rfl⟩

theorem RowsKept.trans {s t u : Db ρ σ} (hst : RowsKept s t) (htu : RowsKept t u) : RowsKept s u := by
  intro row hrow
  obtain ⟨row', hrow', hanchor, n, hcase, hjob⟩ := hst row hrow
  obtain ⟨row'', hrow'', hanchor', m, hcase', hjob'⟩ := htu row' hrow'
  refine ⟨row'', hrow'', hanchor'.trans hanchor, n + m, ?_, ?_⟩
  · omega
  · omega

/-- Some reproduction of the database has the anchor of the record. -/
def Anchored (db : Db ρ σ) (record : DurableReproductionRecord ρ σ) : Prop :=
  ∃ row, Joined db row ∧ row.anchor = record.anchor

theorem Anchored.kept {db db' : Db ρ σ} {record : DurableReproductionRecord ρ σ} (h : Anchored db record)
    (hkept : RowsKept db db') : Anchored db' record := by
  obtain ⟨row, hrow, hanchor⟩ := h
  obtain ⟨row', hrow', hanchor', -⟩ := hkept row hrow
  exact ⟨row', hrow', hanchor'.trans hanchor⟩

variable [ResultDocument ρ] [RequestDocument σ]

/-- The invariant of the reproductions of a database. -/
structure Lockstep (db : Db ρ σ) : Prop where
  joined : ∀ key i, db.idempotencyKeys.get key = some i → ∃ row, Joined db row ∧ row.key = key
  readable : ∀ row, Joined db row → ReadableRow row
  caseUnique : ∀ row other, Joined db row → Joined db other → row.caseKey = other.caseKey → row.key = other.key
  jobUnique : ∀ row other, Joined db row → Joined db other → row.jobKey = other.jobKey → row.key = other.key
  caseOwned : ∀ key c, db.cases.get key = some c → ∃ row, Joined db row ∧ row.caseKey = key
  jobOwned : ∀ key j, db.jobs.get key = some j → ∃ row, Joined db row ∧ row.jobKey = key

theorem lockstep_initial (now : Instant) (tenants : Table String TenantRow) :
    Lockstep (Db.initial now tenants : Db ρ σ) where
  joined := by intro key i h; cases h
  readable := by intro row h; cases h.idempotency
  caseUnique := by intro row other h; cases h.idempotency
  jobUnique := by intro row other h; cases h.idempotency
  caseOwned := by intro key c h; cases h
  jobOwned := by intro key j h; cases h

/-! ## A start -/

section start

variable {db db' : Db ρ σ}

/-- A new reproduction: its joined row, beside the rows that were there. -/
def newRow (record : DurableReproductionRecord ρ σ) (now : Instant) : DurableRow ρ σ :=
  ⟨recordKey record, newIdempotencyKey record now, newCase record now, newJob record now⟩

omit [ResultDocument ρ] [RequestDocument σ] in
theorem newRow_anchor (record : DurableReproductionRecord ρ σ) (now : Instant) :
    (newRow record now).anchor = record.anchor := rfl

theorem newRow_readable {record : DurableReproductionRecord ρ σ} (now : Instant)
    (h : validateRecord record true = true) : ReadableRow (newRow record now) := by
  obtain ⟨hok, hversion⟩ := validateRecord_iff.mp h
  have hjob : rowJob record.jobId (newJob record now) record.snapshot.job.attempt record.snapshot.job.failure =
      record.snapshot.job := by
    have hid : record.snapshot.job.id = record.jobId := hok.job.id
    have hcase : record.snapshot.job.caseId = record.caseId := hok.job.caseId
    simp only [rowJob, newJob, ← hid, ← hcase]
  refine ⟨hok.anchor, hok.case, rfl, ⟨record.snapshot.job.failure, ?_, ?_⟩, rfl, ?_⟩
  · exact jobFailure_of_columns rfl rfl rfl
  · exact hjob.symm ▸ hok.job
  · exact ⟨le_refl 1, (by decide : 1 ≤ maxSafeInteger), hok.stamp.order, hok.stamp.updatedAt⟩

theorem StartWrite.joined_new {limits : QuotaLimits} {input : DurableStartInput ρ σ}
    (h : StartWrite limits input db db') : Joined db' (newRow input.record db.now) := by
  refine ⟨?_, ?_, ?_, rfl⟩
  · rw [h.result]
    exact Table.get_insert_self h.idempotencyKey
  · rw [h.result]
    exact Table.get_insert_self h.case
  · rw [h.result]
    exact Table.get_insert_self h.job

theorem StartWrite.joined_old {limits : QuotaLimits} {input : DurableStartInput ρ σ}
    (h : StartWrite limits input db db') {row : DurableRow ρ σ} (hrow : Joined db row) : Joined db' row := by
  rw [h.result]
  exact ⟨Table.get_insert_some hrow.idempotency, Table.get_insert_some hrow.case,
    Table.get_insert_some hrow.job, hrow.caseId⟩

theorem StartWrite.joined_cases (hdb : Lockstep db) {limits : QuotaLimits} {input : DurableStartInput ρ σ}
    (h : StartWrite limits input db db') {r' : DurableRow ρ σ} (hr' : Joined db' r') :
    r' = newRow input.record db.now ∨ Joined db r' := by
  by_cases hkey : r'.key = recordKey input.record
  · exact .inl (hr'.eq_of_key h.joined_new hkey)
  · right
    have hidempotency := hr'.idempotency
    rw [h.result] at hidempotency
    obtain ⟨r, hr, he⟩ := hdb.joined _ _ ((Table.get_insert_other hkey).symm.trans hidempotency)
    exact (h.joined_old hr).eq_of_key hr' he ▸ hr

theorem StartWrite.lockstep (hdb : Lockstep db) {limits : QuotaLimits} {input : DurableStartInput ρ σ}
    (h : StartWrite limits input db db') : Lockstep db' := by
  have hcaseNew : ∀ r, Joined db r → r.caseKey ≠ recordCaseKey input.record := by
    intro r hr he
    have hc := hr.case
    rw [he, h.case] at hc
    cases hc
  have hjobNew : ∀ r, Joined db r → r.jobKey ≠ recordJobKey input.record := by
    intro r hr he
    have hj := hr.job
    rw [he, h.job] at hj
    cases hj
  constructor
  · intro key i hi
    by_cases hkey : key = recordKey input.record
    · exact ⟨_, h.joined_new, hkey.symm⟩
    · rw [h.result] at hi
      obtain ⟨r, hr, he⟩ := hdb.joined key i ((Table.get_insert_other hkey).symm.trans hi)
      exact ⟨r, h.joined_old hr, he⟩
  · intro r' hr'
    rcases h.joined_cases hdb hr' with rfl | hr
    · exact newRow_readable db.now h.valid
    · exact hdb.readable _ hr
  · intro r s hr hs he
    rcases h.joined_cases hdb hr with rfl | hr <;> rcases h.joined_cases hdb hs with rfl | hs
    · rfl
    · exact absurd he.symm (hcaseNew s hs)
    · exact absurd he (hcaseNew r hr)
    · exact hdb.caseUnique r s hr hs he
  · intro r s hr hs he
    rcases h.joined_cases hdb hr with rfl | hr <;> rcases h.joined_cases hdb hs with rfl | hs
    · rfl
    · exact absurd he.symm (hjobNew s hs)
    · exact absurd he (hjobNew r hr)
    · exact hdb.jobUnique r s hr hs he
  · intro key c hc
    by_cases hkey : key = recordCaseKey input.record
    · exact ⟨_, h.joined_new, hkey.symm⟩
    · rw [h.result] at hc
      obtain ⟨r, hr, he⟩ := hdb.caseOwned key c ((Table.get_insert_other hkey).symm.trans hc)
      exact ⟨r, h.joined_old hr, he⟩
  · intro key j hj
    by_cases hkey : key = recordJobKey input.record
    · exact ⟨_, h.joined_new, hkey.symm⟩
    · rw [h.result] at hj
      obtain ⟨r, hr, he⟩ := hdb.jobOwned key j ((Table.get_insert_other hkey).symm.trans hj)
      exact ⟨r, h.joined_old hr, he⟩

end start

/-! ## A job write -/

section writes

variable [Sha256] {db db' : Db ρ σ} {event : Event ρ σ}

/-- The row of the reproduction that a job write moves. -/
structure Moves (db db' : Db ρ σ) (row : DurableRow ρ σ) (j' : JobRow) (c' : CaseRow ρ σ) : Prop where
  joined : Joined db row
  write : JobWrite db db' row.jobKey row.caseKey row.job j' row.case c'
  domain : SameDomain row.case c'

theorem Moves.joined_moved {row : DurableRow ρ σ} {j' : JobRow} {c' : CaseRow ρ σ}
    (h : Moves db db' row j' c') : Joined db' (row.moved j' c') := by
  have hw := h.write
  refine ⟨?_, ?_, hw.job_get, ?_⟩
  · rw [hw.result]
    exact h.joined.idempotency
  · rw [hw.result]
    exact Table.get_set_self hw.case
  · exact hw.step.progress.caseId.trans h.joined.caseId

theorem Moves.joined_other (hdb : Lockstep db) {row other : DurableRow ρ σ} {j' : JobRow} {c' : CaseRow ρ σ}
    (h : Moves db db' row j' c') (hother : Joined db other) (hkey : other.key ≠ row.key) :
    Joined db' other := by
  have hw := h.write
  refine ⟨?_, ?_, ?_, hother.caseId⟩
  · rw [hw.result]
    exact hother.idempotency
  · rw [hw.result]
    exact (Table.get_set_other _ _ (fun he => hkey (hdb.caseUnique _ _ hother h.joined he))).trans hother.case
  · exact (hw.job_get_other (fun he => hkey (hdb.jobUnique _ _ hother h.joined he))).trans hother.job

/-- The rows after a job write: the moved one and the others. -/
theorem Moves.joined_cases (hdb : Lockstep db) {row r' : DurableRow ρ σ} {j' : JobRow} {c' : CaseRow ρ σ}
    (h : Moves db db' row j' c') (hr' : Joined db' r') :
    r' = row.moved j' c' ∨ Joined db r' ∧ r'.key ≠ row.key := by
  by_cases hkey : r'.key = row.key
  · exact .inl (hr'.eq_of_key h.joined_moved hkey)
  · right
    have hidempotency : db.idempotencyKeys.get r'.key = some r'.idempotency := by
      have hi := hr'.idempotency
      rw [h.write.result] at hi
      exact hi
    obtain ⟨r, hr, he⟩ := hdb.joined _ _ hidempotency
    have hkept := h.joined_other hdb hr (he ▸ hkey)
    have hsame : r = r' := hkept.eq_of_key hr' he
    exact ⟨hsame ▸ hr, hkey⟩

theorem Moves.rowsKept (hdb : Lockstep db) {row : DurableRow ρ σ} {j' : JobRow} {c' : CaseRow ρ σ}
    (h : Moves db db' row j' c') : RowsKept db db' := by
  intro r hr
  by_cases hkey : r.key = row.key
  · obtain rfl := hr.eq_of_key h.joined hkey
    obtain ⟨hreadable, hanchor⟩ := h.write.readable (hdb.readable _ hr) h.domain
    have hversion := (h.write.step.caseMoved (hdb.readable _ hr) h.domain).version
    refine ⟨_, h.joined_moved, hanchor, 1, hversion, ?_⟩
    have hlock := hreadable.version
    simp only [DurableRow.moved] at hlock ⊢
    rw [← hlock, hversion, h.write.versions]
  · exact ⟨r, h.joined_other hdb hr hkey, rfl, 0, rfl, rfl⟩

theorem Moves.lockstep (hdb : Lockstep db) {row : DurableRow ρ σ} {j' : JobRow} {c' : CaseRow ρ σ}
    (h : Moves db db' row j' c') : Lockstep db' := by
  have hkept := h.rowsKept hdb
  have owned : ∀ r, Joined db r → ∃ r', Joined db' r' ∧ r'.key = r.key ∧ r'.caseKey = r.caseKey ∧
      r'.jobKey = r.jobKey := by
    intro r hr
    obtain ⟨r', hr', hanchor, -⟩ := hkept r hr
    exact ⟨r', hr', keys_of_anchor hanchor⟩
  constructor
  · intro key i hi
    rw [h.write.result] at hi
    obtain ⟨r, hr, rfl⟩ := hdb.joined key i hi
    obtain ⟨r', hr', hkey, -⟩ := owned r hr
    exact ⟨r', hr', hkey⟩
  · intro r' hr'
    rcases h.joined_cases hdb hr' with rfl | ⟨hr, -⟩
    · exact (h.write.readable (hdb.readable _ h.joined) h.domain).1
    · exact hdb.readable _ hr
  · intro r s hr hs he
    rcases h.joined_cases hdb hr with rfl | ⟨hr, hrkey⟩ <;> rcases h.joined_cases hdb hs with rfl | ⟨hs, hskey⟩
    · rfl
    · exact hdb.caseUnique row s h.joined hs he
    · exact hdb.caseUnique r row hr h.joined he
    · exact hdb.caseUnique r s hr hs he
  · intro r s hr hs he
    rcases h.joined_cases hdb hr with rfl | ⟨hr, hrkey⟩ <;> rcases h.joined_cases hdb hs with rfl | ⟨hs, hskey⟩
    · rfl
    · exact hdb.jobUnique row s h.joined hs he
    · exact hdb.jobUnique r row hr h.joined he
    · exact hdb.jobUnique r s hr hs he
  · intro key c hc
    rw [h.write.result, Table.get_set] at hc
    obtain ⟨c₀, hc₀⟩ : ∃ c₀, db.cases.get key = some c₀ := by
      split at hc
      · rename_i he
        exact ⟨row.case, he ▸ h.write.case⟩
      · exact ⟨c, hc⟩
    obtain ⟨r, hr, rfl⟩ := hdb.caseOwned key c₀ hc₀
    obtain ⟨r', hr', -, hcase, -⟩ := owned r hr
    exact ⟨r', hr', hcase⟩
  · intro key j hj
    obtain ⟨j₀, hj₀⟩ : ∃ j₀, db.jobs.get key = some j₀ := by
      by_cases hk : key = row.jobKey
      · exact ⟨row.job, hk ▸ h.write.job⟩
      · exact ⟨j, (h.write.job_get_other hk) ▸ hj⟩
    obtain ⟨r, hr, rfl⟩ := hdb.jobOwned key j₀ hj₀
    obtain ⟨r', hr', -, -, hjob⟩ := owned r hr
    exact ⟨r', hr', hjob⟩

/-- The reproduction that a job write moves is the one that its caller read. -/
theorem moves_of_jobWrite (hdb : Lockstep db)
    (hedits : ∀ record, event.edits record → Anchored db record) {key caseKey : Key} {j j' : JobRow}
    {c c' : CaseRow ρ σ} (hw : JobWrite db db' key caseKey j j' c c')
    (hsource : DocumentSource event key caseKey j c c') : ∃ row, Moves db db' row j' c' := by
  obtain ⟨row, hrow, rfl⟩ := hdb.jobOwned key j hw.job
  have hj : row.job = j := Option.some.inj (hrow.job.symm.trans hw.job)
  have moves : caseKey = row.caseKey → SameDomain c c' → Moves db db' row j' c' := by
    intro hkey hdomain
    subst hkey
    have hc : row.case = c := Option.some.inj (hrow.case.symm.trans hw.case)
    exact ⟨hrow, by rw [hj, hc]; exact hw, by rw [hc]; exact hdomain⟩
  cases hsource with
  | kept hid hdomain =>
    refine ⟨row, moves ?_ hdomain⟩
    have hcaseId : caseKey.id = row.idempotency.caseId := by rw [hid, ← hj, hrow.caseId]
    have he : caseKey = ⟨caseKey.tenantId, caseKey.id⟩ := rfl
    rw [he, hw.tenant, hcaseId]
    rfl
  | edited record hedit hkey hcaseKey hc' =>
    obtain ⟨found, hfound, hanchor⟩ := hedits record hedit
    have hrecord := recordKeys_of_anchor hanchor
    have hsame : found = row :=
      hfound.eq_of_key hrow (hdb.jobUnique found row hfound hrow (hrecord.1.trans hkey.symm))
    subst hsame
    refine ⟨found, moves (hcaseKey.trans hrecord.2.symm) ?_⟩
    rw [hcaseKey, ← hrecord.2] at hw
    have hc : found.case = c := Option.some.inj (hrow.case.symm.trans hw.case)
    rw [← hc, hc']
    have hsource := congrArg Anchor.repositorySource hanchor
    have hsample := congrArg Anchor.sampleId hanchor
    have hschema := congrArg Anchor.schemaVersion hanchor
    exact ⟨hsource.symm, hsample.symm, hschema.symm⟩

omit [Sha256] in
/-- A write to other tables leaves the reproductions as they are. -/
theorem Lockstep.of_same (hdb : Lockstep db) (hkeys : db'.idempotencyKeys = db.idempotencyKeys)
    (hcases : db'.cases = db.cases) (hjobs : db'.jobs = db.jobs) : Lockstep db' ∧ RowsKept db db' := by
  have hjoined : ∀ row, Joined db' row ↔ Joined db row := by
    intro row
    constructor
    · rintro ⟨hi, hc, hj, he⟩
      exact ⟨hkeys ▸ hi, hcases ▸ hc, hjobs ▸ hj, he⟩
    · rintro ⟨hi, hc, hj, he⟩
      exact ⟨hkeys ▸ hi, hcases ▸ hc, hjobs ▸ hj, he⟩
  refine ⟨?_, fun row hrow => ⟨row, (hjoined row).mpr hrow, rfl, 0, rfl, rfl⟩⟩
  constructor
  · simpa only [hjoined, hkeys] using hdb.joined
  · simpa only [hjoined] using hdb.readable
  · simpa only [hjoined] using hdb.caseUnique
  · simpa only [hjoined] using hdb.jobUnique
  · simpa only [hjoined, hcases] using hdb.caseOwned
  · simpa only [hjoined, hjobs] using hdb.jobOwned

theorem Change.lockstep (hdb : Lockstep db) (hedits : ∀ record, event.edits record → Anchored db record)
    (h : Change event db db') : Lockstep db' ∧ RowsKept db db' := by
  cases h with
  | job hw hsource =>
    obtain ⟨row, hmoves⟩ := moves_of_jobWrite hdb hedits hw hsource
    exact ⟨hmoves.lockstep hdb, hmoves.rowsKept hdb⟩
  | audit key row hd => exact hdb.of_same (by rw [hd]) (by rw [hd]) (by rw [hd])
  | outbox hw _ => exact hdb.of_same (by rw [hw.result]) (by rw [hw.result]) (by rw [hw.result])
  | environment now tenants artifacts deletions hd _ =>
    exact hdb.of_same (by rw [hd]) (by rw [hd]) (by rw [hd])

theorem changes_lockstep (hdb : Lockstep db) (hedits : ∀ record, event.edits record → Anchored db record)
    (h : ReflTransGen (Change event) db db') : Lockstep db' ∧ RowsKept db db' := by
  induction h with
  | refl => exact ⟨hdb, .refl db⟩
  | tail _ hc ih =>
    obtain ⟨hlock, hkept⟩ := ih
    obtain ⟨hlock', hkept'⟩ := hc.lockstep hlock (fun record he => (hedits record he).kept hkept)
    exact ⟨hlock', hkept.trans hkept'⟩

/-- An event whose records were read from the database keeps its reproductions in lockstep. -/
theorem step_lockstep (hdb : Lockstep db) {event : Event ρ σ}
    (hedits : ∀ record, event.edits record → Anchored db record) :
    Lockstep (step event db) ∧ RowsKept db (step event db) := by
  cases hevent : event.isStart with
  | false => exact changes_lockstep hdb hedits (step_changes hevent db)
  | true =>
    cases event with
    | call attempts op =>
      cases op with
      | start limits input =>
        rcases step_start attempts limits input db with hd | hw
        · rw [hd]
          exact ⟨hdb, .refl db⟩
        · exact ⟨hw.lockstep hdb, fun row hrow => ⟨row, hw.joined_old hrow, rfl, 0, rfl, rfl⟩⟩
      | _ => simp [Event.isStart, Op.isStart] at hevent
    | _ => simp [Event.isStart] at hevent

end writes

/-! ## Clients that edit what they found -/

/-- The fields of a record that the services change before they store it. -/
structure Edit (ρ : Type) where
  case : ReproCase
  job : ReproductionJob
  result : Option ρ
  updatedAt : Instant

def DurableReproductionRecord.edited (record : DurableReproductionRecord ρ σ) (edit : Edit ρ) :
    DurableReproductionRecord ρ σ :=
  { record with
    snapshot := { record.snapshot with case := edit.case, job := edit.job, result := edit.result }
    updatedAt := edit.updatedAt }

inductive Query where
  | findByCaseId : TenantScope → String → Query
  | findByIdempotencyKey : TenantScope → String → Query
  | findByJobId : TenantScope → String → Query
  | findByLease : JobLease → Query

def Query.statement : Query → Statement ρ σ (Option (DurableReproductionRecord ρ σ))
  | .findByCaseId scope caseId => ReproForge.findByCaseId scope caseId
  | .findByIdempotencyKey scope idempotencyKey => ReproForge.findByIdempotencyKey scope idempotencyKey
  | .findByJobId scope jobId => ReproForge.findByJobId scope jobId
  | .findByLease lease => ReproForge.findByLease lease

/-- The database and every record that a client has found in it so far. -/
structure World (ρ σ : Type) where
  db : Db ρ σ
  found : List (DurableReproductionRecord ρ σ)

def World.initial (now : Instant) (tenants : Table String TenantRow) : World ρ σ :=
  ⟨Db.initial now tenants, []⟩

inductive Action (ρ σ : Type) where
  | event : Event ρ σ → Action ρ σ
  | find : Query → Action ρ σ

variable [Sha256]

def World.step : Action ρ σ → World ρ σ → World ρ σ
  | .event event, w => { w with db := ReproForge.step event w.db }
  | .find query, w =>
    match query.statement w.db with
    | (.ok (some record), _) => { w with found := record :: w.found }
    | _ => w

/-- The records handed to `save` and `completeLease` are found records, edited. -/
def World.Permitted (w : World ρ σ) : Action ρ σ → Prop
  | .event event => ∀ record, event.edits record → ∃ found ∈ w.found, ∃ edit, record = found.edited edit
  | .find _ => True

omit [Sha256] in
/-- A lookup reports a record that it decoded from a joined row. -/
theorem Query.statement_some {query : Query} {db db' : Db ρ σ} {record : DurableReproductionRecord ρ σ}
    (h : query.statement db = (.ok (some record), db')) :
    ∃ row, Joined db row ∧ rowToRecord row = some record := by
  have checked : ∀ {valid : Bool} {condition : DurableRow ρ σ → Bool},
      (do require valid .schema; find condition : Statement ρ σ _) db = (.ok (some record), db') →
      ∃ row, Joined db row ∧ rowToRecord row = some record := by
    intro valid condition hf
    simp only [bind_ok, require_ok] at hf
    obtain ⟨_, _, ⟨-, rfl⟩, hf⟩ := hf
    obtain ⟨-, row, hrow, -, hrecord⟩ := find_some hf
    exact ⟨row, hrow, hrecord⟩
  cases query with
  | findByCaseId scope caseId => exact checked h
  | findByIdempotencyKey scope idempotencyKey => exact checked h
  | findByJobId scope jobId => exact checked h
  | findByLease lease => exact checked h

/-- The reproductions are in lockstep and every record that was found is still anchored. -/
structure World.Sound (w : World ρ σ) : Prop where
  lockstep : Lockstep w.db
  anchored : ∀ record ∈ w.found, Anchored w.db record

theorem World.Sound.step {w : World ρ σ} (h : w.Sound) {action : Action ρ σ} (hp : w.Permitted action) :
    (World.step action w).Sound ∧ RowsKept w.db (World.step action w).db := by
  cases action with
  | event event =>
    have hedits : ∀ record, event.edits record → Anchored w.db record := by
      intro record he
      obtain ⟨found, hfound, edit, rfl⟩ := hp record he
      exact h.anchored found hfound
    obtain ⟨hlock, hkept⟩ := step_lockstep h.lockstep hedits
    exact ⟨⟨hlock, fun record hr => (h.anchored record hr).kept hkept⟩, hkept⟩
  | find query =>
    simp only [World.step]
    split
    · rename_i record db' hq
      obtain ⟨row, hrow, hrecord⟩ := query.statement_some hq
      refine ⟨⟨h.lockstep, ?_⟩, .refl w.db⟩
      intro r hr
      rcases List.mem_cons.mp hr with rfl | hr
      · exact ⟨row, hrow, (rowToRecord_anchor hrecord).symm⟩
      · exact h.anchored r hr
    · exact ⟨h, .refl w.db⟩

theorem world_sound {now : Instant} {tenants : Table String TenantRow} {actions : List (Action ρ σ)}
    (h : Runs.Guarded World.step World.Permitted actions (World.initial now tenants)) :
    (Runs.run World.step actions (World.initial now tenants)).Sound := by
  refine Runs.run_invariant (fun w action hw hp => (hw.step hp).1) ?_ h
  refine ⟨lockstep_initial now tenants, ?_⟩
  intro record hr
  cases hr

/-- What a reader finds of one case. -/
structure CaseInLockstep (db : Db ρ σ) (key : Key) (c : CaseRow ρ σ) (row : DurableRow ρ σ) : Prop where
  joined : Joined db row
  caseKey : row.caseKey = key
  case : row.case = c
  /-- No other joined row and no other job belongs to the case. -/
  onlyRow : ∀ other, Joined db other → other.caseKey = key → other = row
  onlyJob : ∀ jobKey j, db.jobs.get jobKey = some j → jobKey.tenantId = key.tenantId → j.caseId = key.id →
    jobKey = row.jobKey ∧ j = row.job
  versions : c.version = row.job.version
  state : c.state = c.domainState.case.state
  readable : ∃ record, rowToRecord row = some record

omit [Sha256] in
theorem Lockstep.case {db : Db ρ σ} (h : Lockstep db) {key : Key} {c : CaseRow ρ σ}
    (hc : db.cases.get key = some c) : ∃ row, CaseInLockstep db key c row := by
  obtain ⟨row, hrow, rfl⟩ := h.caseOwned key c hc
  have hcase : row.case = c := Option.some.inj (hrow.case.symm.trans hc)
  have hreadable := h.readable row hrow
  refine ⟨row, hrow, rfl, hcase, ?_, ?_, ?_, ?_, readableRow_iff.mp hreadable⟩
  · intro other hother he
    exact hother.eq_of_key hrow (h.caseUnique other row hother hrow he)
  · intro jobKey j hj htenant hid
    obtain ⟨other, hother, rfl⟩ := h.jobOwned jobKey j hj
    have hj' : other.job = j := Option.some.inj (hother.job.symm.trans hj)
    have hcaseKey : other.caseKey = row.caseKey := by
      have hcaseId := hother.caseId
      rw [hj', hid] at hcaseId
      simp only [DurableRow.jobKey, DurableRow.caseKey] at htenant hcaseId ⊢
      rw [htenant, hcaseId]
    have hsame := hother.eq_of_key hrow (h.caseUnique other row hother hrow hcaseKey)
    subst hsame
    exact ⟨rfl, hj'.symm⟩
  · rw [← hcase]
    exact hreadable.version
  · rw [← hcase]
    exact hreadable.state.symm

/-- Whatever the order and the fate of the operations, every case stays readable and
in lockstep with its one job, and an operation moves both versions alike. -/
theorem lockstep_and_readable {now : Instant} {tenants : Table String TenantRow}
    {actions : List (Action ρ σ)}
    (h : Runs.Guarded World.step World.Permitted actions (World.initial now tenants)) :
    (∀ key c, (Runs.run World.step actions (World.initial now tenants)).db.cases.get key = some c →
      ∃ row, CaseInLockstep (Runs.run World.step actions (World.initial now tenants)).db key c row) ∧
    ∀ action, (Runs.run World.step actions (World.initial now tenants)).Permitted action →
      RowsKept (Runs.run World.step actions (World.initial now tenants)).db
        (World.step action (Runs.run World.step actions (World.initial now tenants))).db := by
  have hsound := world_sound h
  constructor
  · intro key c hc
    exact hsound.lockstep.case hc
  · intro action hp
    exact (hsound.step hp).2

end ReproForge

namespace ReproForge

open Sample

/-- The record of the first start, and a later time to store it with. -/
def firstRecord : DurableReproductionRecord Empty Empty :=
  ((startInput reservationLifetime (command "case-1" "job-1" "key-1" opening)).get first_accepted).record

def touched : Edit Empty :=
  ⟨firstRecord.snapshot.case, firstRecord.snapshot.job, none, opening + 1000⟩

/-- A start, a lookup and a save of the record that it found. -/
def touchedRun : List (Action Empty Empty) :=
  [.event first, .find (.findByCaseId ⟨"caller", "caller", "acme"⟩ "case-1"),
    .event (.call [] (.save (firstRecord.edited touched) 1))]

theorem touchedRun_evaluated :
    firstRecord ∈ (Runs.run World.step (touchedRun.take 2) (World.initial opening tenants)).found ∧
      ((Runs.run World.step touchedRun (World.initial opening tenants)).db.cases.get
        ⟨"acme", "case-1"⟩).map CaseRow.version = some 2 := by
  decide +kernel

theorem touchedRun_permitted :
    Runs.Guarded World.step World.Permitted touchedRun (World.initial opening tenants) := by
  obtain ⟨hfound, -⟩ := touchedRun_evaluated
  refine Runs.guarded_of_take fun i hi => ?_
  match i, hi with
  | 0, _ => exact fun _ h => h.elim
  | 1, _ => exact trivial
  | 2, _ => exact fun _ h => ⟨firstRecord, hfound, touched, h⟩

theorem lockstep_and_readable_sample :
    ∃ c row, c.version = 2 ∧
      CaseInLockstep (Runs.run World.step touchedRun (World.initial opening tenants)).db
        ⟨"acme", "case-1"⟩ c row := by
  obtain ⟨-, hversion⟩ := touchedRun_evaluated
  obtain ⟨c, hc, hv⟩ := Option.map_eq_some_iff.mp hversion
  obtain ⟨row, hrow⟩ := (lockstep_and_readable touchedRun_permitted).1 _ c hc
  exact ⟨c, row, hv, hrow⟩

end ReproForge
