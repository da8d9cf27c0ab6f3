import ReproForge.Database

/-!
# Reading durable reproductions

The join behind every lookup of a durable reproduction and the decoding of a
joined row into a record. A row that the decoder rejects is reported as corrupt.
-/
namespace ReproForge

open KeyedTable Transactions Transactions.Tx

variable {ρ σ : Type} [ResultDocument ρ] [RequestDocument σ]

/-- One row of `DURABLE_SELECT`: an idempotency key, its case and its job. -/
structure DurableRow (ρ σ : Type) where
  key : IdempotencyKey
  idempotency : IdempotencyRow
  case : CaseRow ρ σ
  job : JobRow

def DurableRow.jobKey (row : DurableRow ρ σ) : Key := ⟨row.key.tenantId, row.idempotency.jobId⟩
def DurableRow.caseKey (row : DurableRow ρ σ) : Key := ⟨row.key.tenantId, row.idempotency.caseId⟩

/-- The join conditions of `DURABLE_SELECT`. -/
structure Joined (db : Db ρ σ) (row : DurableRow ρ σ) : Prop where
  idempotency : db.idempotencyKeys.get row.key = some row.idempotency
  case : db.cases.get row.caseKey = some row.case
  job : db.jobs.get row.jobKey = some row.job
  caseId : row.job.caseId = row.idempotency.caseId

def joinRow (db : Db ρ σ) (entry : IdempotencyKey × IdempotencyRow) : Option (DurableRow ρ σ) :=
  match db.cases.get ⟨entry.1.tenantId, entry.2.caseId⟩, db.jobs.get ⟨entry.1.tenantId, entry.2.jobId⟩ with
  | some c, some j => if j.caseId = entry.2.caseId then some ⟨entry.1, entry.2, c, j⟩ else none
  | _, _ => none

def durableSelect (db : Db ρ σ) : List (DurableRow ρ σ) := db.idempotencyKeys.rows.filterMap (joinRow db)

omit [ResultDocument ρ] [RequestDocument σ] in
theorem mem_durableSelect {db : Db ρ σ} {row : DurableRow ρ σ} :
    row ∈ durableSelect db ↔ Joined db row := by
  rw [durableSelect, List.mem_filterMap]
  constructor
  · rintro ⟨⟨key, i⟩, hm, hj⟩
    simp only [joinRow] at hj
    split at hj
    · rename_i c j hc hjob
      split at hj
      · rename_i he
        cases hj
        exact ⟨Table.get_eq_some.mpr hm, hc, hjob, he⟩
      · cases hj
    · cases hj
  · intro h
    have hc := h.case
    have hj := h.job
    refine ⟨(row.key, row.idempotency), Table.get_eq_some.mp h.idempotency, ?_⟩
    simp only [DurableRow.caseKey] at hc
    simp only [DurableRow.jobKey] at hj
    simp [joinRow, hc, hj, h.caseId]

/-- The failure columns are all null or all set; anything else fails the schema. -/
def jobFailure (j : JobRow) : Option (Option JobFailure) :=
  match j.failureCode, j.failureMessage, j.failureRetryable with
  | none, none, none => some none
  | some code, some message, some retryable => some (some ⟨code, message, retryable⟩)
  | _, _, _ => none

def rowJob (jobId : String) (j : JobRow) (attempt : Nat) (failure : Option JobFailure) : ReproductionJob where
  attempt := attempt
  caseId := j.caseId
  createdAt := j.createdAt
  failure := failure
  id := jobId
  progressPhase := j.progressPhase
  state := j.state
  updatedAt := j.updatedAt

def rowSnapshot (row : DurableRow ρ σ) (attempt : Nat) (failure : Option JobFailure) :
    ReproductionSnapshot ρ where
  case := row.case.domainState.case
  job := rowJob row.idempotency.jobId row.job attempt failure
  repositorySource := row.case.domainState.repositorySource
  result := row.case.domainState.result
  sampleId := row.case.domainState.sampleId
  schemaVersion := row.case.domainState.schemaVersion

def rowRecord (row : DurableRow ρ σ) (version attempt : Nat) (failure : Option JobFailure) :
    DurableReproductionRecord ρ σ where
  callerId := row.key.callerId
  caseId := row.idempotency.caseId
  commandHash := row.idempotency.commandHash
  createdAt := row.case.createdAt
  idempotencyKey := row.key.idempotencyKey
  jobId := row.idempotency.jobId
  requestedBudget := row.case.sourceDescriptor.budget
  repositoryRequest := row.case.sourceDescriptor.repositoryRequest
  snapshot := rowSnapshot row attempt failure
  tenantId := row.key.tenantId
  updatedAt := row.case.updatedAt
  version := version

/-- `none` is the corrupt-record error. -/
def rowToRecord (row : DurableRow ρ σ) : Option (DurableReproductionRecord ρ σ) :=
  if row.case.sourceDescriptor.repositoryRequest.all RequestDocument.valid then
    match integer row.case.version, integer row.job.version with
    | some version, some jobVersion =>
      if version = jobVersion then
        match jobFailure row.job, integer row.job.attempt with
        | some failure, some attempt =>
          let snapshot := rowSnapshot row attempt failure
          if snapshot.valid && snapshot.case.state == row.case.state then
            let record := rowRecord row version attempt failure
            if validateRecord record false then some record else none
          else none
        | _, _ => none
      else none
    | _, _ => none
  else none

theorem integer_some {n m : Nat} : integer n = some m ↔ m = n ∧ n ≤ maxSafeInteger := by
  unfold integer
  split
  · rename_i hn
    simp [hn, eq_comm]
  · rename_i hn
    simp [hn]

/-- What a row must satisfy to be readable, and the record it is read as. -/
theorem rowToRecord_some {row : DurableRow ρ σ} {record : DurableReproductionRecord ρ σ} :
    rowToRecord row = some record ↔
      ∃ failure, jobFailure row.job = some failure ∧
        row.case.sourceDescriptor.repositoryRequest.all RequestDocument.valid = true ∧
        row.case.version = row.job.version ∧ row.case.version ≤ maxSafeInteger ∧
        row.job.attempt ≤ maxSafeInteger ∧ (rowSnapshot row row.job.attempt failure).valid = true ∧
        row.case.domainState.case.state = row.case.state ∧
        record = rowRecord row row.case.version row.job.attempt failure ∧
        validateRecord record false = true := by
  unfold rowToRecord
  constructor
  · intro h
    split at h
    · rename_i hr
      split at h
      · rename_i v jv hv hjv
        obtain ⟨hv, hvb⟩ := integer_some.mp hv
        obtain ⟨hjv, -⟩ := integer_some.mp hjv
        subst hv; subst hjv
        split at h
        · rename_i he
          split at h
          · rename_i failure attempt hf ha
            obtain ⟨ha, hab⟩ := integer_some.mp ha
            subst ha
            simp only at h
            split at h
            · rename_i hs
              simp only [Bool.and_eq_true, beq_iff_eq] at hs
              split at h
              · rename_i hval
                cases h
                exact ⟨failure, hf, hr, he, hvb, hab, hs.1, hs.2, rfl, hval⟩
              · cases h
            · cases h
          · cases h
        · cases h
      · cases h
    · cases h
  · rintro ⟨failure, hf, hr, he, hvb, hab, hs, hst, hrec, hval⟩
    subst hrec
    have hi : integer row.case.version = some row.case.version := integer_some.mpr ⟨rfl, hvb⟩
    have hji : integer row.job.version = some row.case.version := integer_some.mpr ⟨he, he ▸ hvb⟩
    have hai : integer row.job.attempt = some row.job.attempt := integer_some.mpr ⟨rfl, hab⟩
    have hcase : (rowSnapshot row row.job.attempt failure).case.state = row.case.state := hst
    simp [hr, hi, hji, hf, hai, hs, hcase, hval]

/-- `SELECT … LIMIT 1`, then `rowToRecord`. -/
def find (condition : DurableRow ρ σ → Bool) : Statement ρ σ (Option (DurableReproductionRecord ρ σ)) :=
  fun db =>
  match (durableSelect db).find? condition with
  | none => (.ok none, db)
  | some row =>
    match rowToRecord row with
    | some record => (.ok (some record), db)
    | none => (.error .corruptDurableRecord, db)

theorem find_some {condition : DurableRow ρ σ → Bool} {db db' : Db ρ σ}
    {record : DurableReproductionRecord ρ σ} (h : find condition db = (.ok (some record), db')) :
    db' = db ∧ ∃ row, Joined db row ∧ condition row = true ∧ rowToRecord row = some record := by
  simp only [find] at h
  split at h
  · simp at h
  · rename_i row hrow
    split at h
    · rename_i record' hr
      simp only [Prod.mk.injEq, Except.ok.injEq, Option.some.injEq] at h
      obtain ⟨he, hd⟩ := h
      subst he
      exact ⟨hd.symm, row, mem_durableSelect.mp (List.mem_of_find?_eq_some hrow),
        List.find?_some hrow, hr⟩
    · simp at h

theorem find_none {condition : DurableRow ρ σ → Bool} {db db' : Db ρ σ}
    (h : find condition db = (.ok none, db')) :
    db' = db ∧ ∀ row, Joined db row → condition row = false := by
  simp only [find] at h
  split at h
  · rename_i hf
    simp only [Prod.mk.injEq, true_and] at h
    refine ⟨h.symm, ?_⟩
    intro row hrow
    have hn := List.find?_eq_none.mp hf row (mem_durableSelect.mpr hrow)
    simpa using hn
  · split at h <;> simp at h

/-- A lookup leaves the database alone, whatever it reports. -/
theorem find_db (condition : DurableRow ρ σ → Bool) (db : Db ρ σ) : (find condition db).2 = db := by
  simp only [find]
  split
  · rfl
  · split <;> rfl

def findByCaseId (scope : TenantScope) (caseId : String) :
    Statement ρ σ (Option (DurableReproductionRecord ρ σ)) := do
  require scope.valid .schema
  find (fun row => row.key.tenantId == scope.tenantId && row.key.callerId == scope.callerId &&
    row.caseKey.id == caseId)

def findByIdempotencyKey (scope : TenantScope) (idempotencyKey : String) :
    Statement ρ σ (Option (DurableReproductionRecord ρ σ)) := do
  require scope.valid .schema
  find (fun row => row.key.tenantId == scope.tenantId && row.key.callerId == scope.callerId &&
    row.key.idempotencyKey == idempotencyKey)

def findByJobId (scope : TenantScope) (jobId : String) :
    Statement ρ σ (Option (DurableReproductionRecord ρ σ)) := do
  require scope.valid .schema
  find (fun row => row.key.tenantId == scope.tenantId && row.key.callerId == scope.callerId &&
    row.jobKey.id == jobId)

/-- The row carries exactly this lease. -/
def JobRow.leasedBy (j : JobRow) (lease : JobLease) : Bool :=
  j.state == .running && j.leaseOwner == some lease.ownerId && j.attempt == lease.attempt &&
    j.leaseAcquiredAt == some lease.acquiredAt && j.leaseExpiresAt == some lease.expiresAt

theorem JobRow.leasedBy_iff {j : JobRow} {lease : JobLease} :
    j.leasedBy lease = true ↔ j.state = .running ∧ j.leaseOwner = some lease.ownerId ∧
      j.attempt = lease.attempt ∧ j.leaseAcquiredAt = some lease.acquiredAt ∧
      j.leaseExpiresAt = some lease.expiresAt := by
  simp only [JobRow.leasedBy, Bool.and_eq_true, beq_iff_eq]
  tauto

def findByLease (lease : JobLease) : Statement ρ σ (Option (DurableReproductionRecord ρ σ)) := do
  require lease.valid .schema
  find (fun row => row.key.tenantId == lease.tenantId && row.jobKey.id == lease.jobId &&
    row.job.leasedBy lease)

end ReproForge
