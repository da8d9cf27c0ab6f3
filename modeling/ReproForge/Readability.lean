import ReproForge.System

/-!
# Readable rows

What a joined row must satisfy for its decoder to accept it, split by who can
change it: the anchor of the reproduction, which nothing changes, the case
document, the job, and the version and times that the two rows share. A valid
record satisfies the same conditions, and every job step keeps them.
-/
namespace ReproForge

open KeyedTable Transactions.Tx

variable {ρ σ : Type}

/-- The part of a reproduction that is fixed when it is reserved. -/
structure Anchor (σ : Type) where
  callerId : String
  caseId : String
  commandHash : String
  createdAt : Instant
  idempotencyKey : String
  jobId : String
  requestedBudget : Option RequestedBudget
  repositoryRequest : Option σ
  repositorySource : Option ImmutableRepositorySource
  sampleId : Option SampleId
  schemaVersion : String
  tenantId : String

def DurableReproductionRecord.anchor (record : DurableReproductionRecord ρ σ) : Anchor σ where
  callerId := record.callerId
  caseId := record.caseId
  commandHash := record.commandHash
  createdAt := record.createdAt
  idempotencyKey := record.idempotencyKey
  jobId := record.jobId
  requestedBudget := record.requestedBudget
  repositoryRequest := record.repositoryRequest
  repositorySource := record.snapshot.repositorySource
  sampleId := record.snapshot.sampleId
  schemaVersion := record.snapshot.schemaVersion
  tenantId := record.tenantId

def DurableRow.anchor (row : DurableRow ρ σ) : Anchor σ where
  callerId := row.key.callerId
  caseId := row.idempotency.caseId
  commandHash := row.idempotency.commandHash
  createdAt := row.case.createdAt
  idempotencyKey := row.key.idempotencyKey
  jobId := row.idempotency.jobId
  requestedBudget := row.case.sourceDescriptor.budget
  repositoryRequest := row.case.sourceDescriptor.repositoryRequest
  repositorySource := row.case.domainState.repositorySource
  sampleId := row.case.domainState.sampleId
  schemaVersion := row.case.domainState.schemaVersion
  tenantId := row.key.tenantId

structure Anchor.Ok [RequestDocument σ] (a : Anchor σ) : Prop where
  callerId : opaqueId a.callerId = true
  tenantId : opaqueId a.tenantId = true
  commandHash : hexDigest 64 a.commandHash = true
  keyLower : 1 ≤ utf16Length a.idempotencyKey
  keyUpper : utf16Length a.idempotencyKey ≤ 128
  source : a.repositorySource.all ImmutableRepositorySource.valid = true
  request : requestMatchesSource a.repositoryRequest a.repositorySource = true
  budget : a.requestedBudget.all RequestedBudget.valid = true
  schemaVersion : a.schemaVersion = "2.0"
  kind : (a.sampleId.isSome != a.repositorySource.isSome) = true
  createdAt : datetime a.createdAt = true

/-- A lifecycle and a result that fit the anchor. -/
structure CaseOk [ResultDocument ρ] (a : Anchor σ) (case : ReproCase) (result : Option ρ) : Prop where
  valid : case.valid = true
  id : case.id = a.caseId
  resultValid : result.all ResultDocument.valid = true
  resultKind : result.all (fun r =>
    if ResultDocument.repository r then a.repositorySource.isSome else a.sampleId.isSome) = true

/-- A job that fits the anchor. -/
structure JobOk (a : Anchor σ) (job : ReproductionJob) : Prop where
  valid : job.valid = true
  id : job.id = a.jobId
  caseId : job.caseId = a.caseId
  failure : job.failure.all sanitizedFailure = true

structure StampOk (a : Anchor σ) (version : Nat) (updatedAt : Instant) : Prop where
  lower : 1 ≤ version
  upper : version ≤ maxSafeInteger
  order : a.createdAt ≤ updatedAt
  updatedAt : datetime updatedAt = true

structure RecordOk [ResultDocument ρ] [RequestDocument σ] (record : DurableReproductionRecord ρ σ) : Prop where
  anchor : record.anchor.Ok
  case : CaseOk record.anchor record.snapshot.case record.snapshot.result
  job : JobOk record.anchor record.snapshot.job
  stamp : StampOk record.anchor record.version record.updatedAt

theorem validateRecord_iff [ResultDocument ρ] [RequestDocument σ] {record : DurableReproductionRecord ρ σ}
    {initial : Bool} :
    validateRecord record initial = true ↔ RecordOk record ∧ (initial = true → record.version = 1) := by
  constructor
  · intro h
    simp only [validateRecord, ReproductionSnapshot.valid, Bool.and_eq_true, beq_iff_eq, decide_eq_true_eq,
      Bool.or_eq_true, Bool.not_eq_true'] at h
    obtain ⟨⟨⟨⟨⟨⟨⟨⟨⟨⟨⟨⟨⟨⟨⟨⟨⟨hcaller, htenant⟩, ⟨⟨⟨⟨⟨⟨hcase, hjob⟩, hsource⟩, hresult⟩, hschema⟩, hkind⟩,
      hresultKind⟩⟩, hhash⟩, hkey⟩, hkey'⟩, hcaseId⟩, hjobId⟩, hjobCase⟩, hrequest⟩, hbudget⟩, hupper⟩, hlower⟩,
      hinitial⟩, horder⟩, hcreated⟩, hupdated⟩, hfailure⟩ := h
    refine ⟨⟨⟨hcaller, htenant, hhash, hkey, hkey', hsource, hrequest, hbudget, hschema, hkind, hcreated⟩,
      ⟨hcase, hcaseId.symm, hresult, hresultKind⟩, ⟨hjob, hjobId.symm, hjobCase.symm, hfailure⟩,
      ⟨hlower, hupper, horder, hupdated⟩⟩, ?_⟩
    intro hi
    rcases hinitial with hf | hv
    · simp [hi] at hf
    · exact hv
  · rintro ⟨⟨a, c, j, s⟩, hinitial⟩
    have hversion : (!initial || record.version == 1) = true := by
      cases initial with
      | false => rfl
      | true => simp [hinitial rfl]
    have h₁ := a.callerId; have h₂ := a.tenantId; have h₃ := a.commandHash
    have h₄ := a.keyLower; have h₅ := a.keyUpper; have h₆ := a.source
    have h₇ := a.request; have h₈ := a.budget; have h₉ := a.schemaVersion
    have h₁₀ := a.kind; have h₁₁ := a.createdAt
    have hc := c.id; have hr := c.resultValid; have hk := c.resultKind
    have hj := j.id; have hjc := j.caseId
    simp only [DurableReproductionRecord.anchor] at h₁ h₂ h₃ h₄ h₅ h₆ h₇ h₈ h₉ h₁₀ h₁₁ hc hk hj hjc
    simp only [validateRecord, ReproductionSnapshot.valid, Bool.and_eq_true, beq_iff_eq, decide_eq_true_eq]
    exact ⟨⟨⟨⟨⟨⟨⟨⟨⟨⟨⟨⟨⟨⟨⟨⟨⟨h₁, h₂⟩, ⟨⟨⟨⟨⟨⟨c.valid, j.valid⟩, h₆⟩, hr⟩, h₉⟩, h₁₀⟩, hk⟩⟩, h₃⟩, h₄⟩, h₅⟩,
      hc.symm⟩, hj.symm⟩, hjc.symm⟩, h₇⟩, h₈⟩, s.upper⟩, s.lower⟩, hversion⟩, s.order⟩, h₁₁⟩, s.updatedAt⟩,
      j.failure⟩

theorem validateRecord_snapshot [ResultDocument ρ] [RequestDocument σ] {record : DurableReproductionRecord ρ σ}
    {initial : Bool} (h : validateRecord record initial = true) : record.snapshot.valid = true := by
  simp only [validateRecord, Bool.and_eq_true] at h
  exact h.1.1.1.1.1.1.1.1.1.1.1.1.1.1.1.2

/-- The conditions under which the decoder accepts a row. -/
structure ReadableRow [ResultDocument ρ] [RequestDocument σ] (row : DurableRow ρ σ) : Prop where
  anchor : row.anchor.Ok
  case : CaseOk row.anchor row.case.domainState.case row.case.domainState.result
  state : row.case.domainState.case.state = row.case.state
  job : ∃ failure, jobFailure row.job = some failure ∧
    JobOk row.anchor (rowJob row.idempotency.jobId row.job row.job.attempt failure)
  version : row.case.version = row.job.version
  stamp : StampOk row.anchor row.case.version row.case.updatedAt

theorem attempt_le_of_valid {job : ReproductionJob} (h : job.valid = true) : job.attempt ≤ 100 := by
  simp only [ReproductionJob.valid, Bool.and_eq_true, decide_eq_true_eq] at h
  omega

variable [ResultDocument ρ] [RequestDocument σ]

theorem rowToRecord_anchor {row : DurableRow ρ σ} {record : DurableReproductionRecord ρ σ}
    (h : rowToRecord row = some record) : record.anchor = row.anchor := by
  obtain ⟨failure, -, -, -, -, -, -, -, rfl, -⟩ := rowToRecord_some.mp h
  rfl

omit [ResultDocument ρ] [RequestDocument σ] in
/-- Under one anchor a row and a record name the same job and the same case. -/
theorem recordKeys_of_anchor {row : DurableRow ρ σ} {record : DurableReproductionRecord ρ σ}
    (h : row.anchor = record.anchor) :
    row.jobKey = recordJobKey record ∧ row.caseKey = recordCaseKey record := by
  have htenant : row.key.tenantId = record.tenantId := congrArg Anchor.tenantId h
  have hjob : row.idempotency.jobId = record.jobId := congrArg Anchor.jobId h
  have hcase : row.idempotency.caseId = record.caseId := congrArg Anchor.caseId h
  rw [DurableRow.jobKey, DurableRow.caseKey, recordJobKey, recordCaseKey, htenant, hjob, hcase]
  exact ⟨rfl, rfl⟩

/-- What is read from a row passes its own check. -/
theorem rowToRecord_ok {row : DurableRow ρ σ} {record : DurableReproductionRecord ρ σ}
    (h : rowToRecord row = some record) : RecordOk record ∧ record.snapshot.valid = true := by
  obtain ⟨_, -, -, -, -, -, -, -, -, hvalid⟩ := rowToRecord_some.mp h
  exact ⟨(validateRecord_iff.mp hvalid).1, validateRecord_snapshot hvalid⟩

theorem readableRow_iff {row : DurableRow ρ σ} :
    ReadableRow row ↔ ∃ record, rowToRecord row = some record := by
  constructor
  · intro h
    obtain ⟨failure, hfailure, hjob⟩ := h.job
    have hattempt := attempt_le_of_valid hjob.valid
    have hok : RecordOk (rowRecord row row.case.version row.job.attempt failure) :=
      ⟨h.anchor, h.case, hjob, h.stamp⟩
    have hvalid := validateRecord_iff.mpr ⟨hok, fun he => absurd he Bool.false_ne_true⟩
    refine ⟨_, rowToRecord_some.mpr ⟨failure, hfailure, ?_, h.version, h.stamp.upper, ?_, ?_, h.state, rfl, hvalid⟩⟩
    · have hr := h.anchor.request
      simp only [DurableRow.anchor] at hr
      unfold requestMatchesSource at hr
      split at hr
      · rename_i he _
        simp [he]
      · rename_i r source he _
        simp only [Bool.and_eq_true] at hr
        simp [he, hr.1.1]
      · cases hr
    · exact hattempt.trans (by decide)
    · have hsnapshot := validateRecord_snapshot hvalid
      exact hsnapshot
  · rintro ⟨record, h⟩
    obtain ⟨failure, hfailure, -, hversion, -, -, -, hstate, rfl, hvalid⟩ := rowToRecord_some.mp h
    obtain ⟨hok, -⟩ := validateRecord_iff.mp hvalid
    exact ⟨hok.anchor, hok.case, hstate, ⟨failure, hfailure, hok.job⟩, hversion, hok.stamp⟩

/-! ## What a job step keeps -/

omit [ResultDocument ρ] [RequestDocument σ] in
theorem jobFailure_of_checks {key : Key} {j : JobRow} (h : j.checks key = true) (hs : j.state ≠ .failed) :
    jobFailure j = some none := by
  simp only [JobRow.checks, JobRow.failureShape, if_neg hs, Bool.and_eq_true, Option.isNone_iff_eq_none] at h
  obtain ⟨hcode, hmessage, hretryable⟩ : j.failureCode = none ∧ j.failureMessage = none ∧
      j.failureRetryable = none := by tauto
  simp [jobFailure, hcode, hmessage, hretryable]

omit [ResultDocument ρ] [RequestDocument σ] in
theorem jobFailure_of_columns {j : JobRow} {failure : Option JobFailure}
    (hcode : j.failureCode = failure.map JobFailure.code)
    (hmessage : j.failureMessage = failure.map JobFailure.message)
    (hretryable : j.failureRetryable = failure.map JobFailure.retryable) : jobFailure j = some failure := by
  cases failure <;> simp [jobFailure, hcode, hmessage, hretryable]

theorem jobValid_iff {job : ReproductionJob} : job.valid = true ↔
    job.attempt ≤ 100 ∧ job.caseId ≠ "" ∧ datetime job.createdAt = true ∧
      job.failure.all (fun f => f.code != "" && f.message != "") = true ∧ job.id ≠ "" ∧
      datetime job.updatedAt = true ∧ (job.state = .queued ∨ job.state = .cancelled ∨ 1 ≤ job.attempt) ∧
      (job.state == .failed) = job.failure.isSome := by
  simp only [ReproductionJob.valid, Bool.and_eq_true, decide_eq_true_eq, bne_iff_ne, ne_eq, Bool.or_eq_true,
    beq_iff_eq]
  tauto

omit [RequestDocument σ] in
/-- A job that moved keeps fitting its anchor when its own columns do. -/
theorem JobOk.moved {a : Anchor σ} {jobId : String} {j j' : JobRow} {attempt : Nat}
    {failure failure' : Option JobFailure} (h : JobOk a (rowJob jobId j attempt failure))
    (hcase : j'.caseId = j.caseId) (hcreated : j'.createdAt = j.createdAt) (hattempt : j'.attempt ≤ 100)
    (hupdated : datetime j'.updatedAt = true)
    (hactive : j'.state = .queued ∨ j'.state = .cancelled ∨ 1 ≤ j'.attempt)
    (hshape : (j'.state == .failed) = failure'.isSome)
    (hfailure : failure'.all (fun f => f.code != "" && f.message != "") = true)
    (hsanitized : failure'.all sanitizedFailure = true) :
    JobOk a (rowJob jobId j' j'.attempt failure') := by
  obtain ⟨-, hne, hdate, -, hid, -, -, -⟩ := jobValid_iff.mp h.valid
  refine ⟨jobValid_iff.mpr ⟨hattempt, ?_, ?_, hfailure, hid, hupdated, hactive, hshape⟩, h.id, ?_, hsanitized⟩
  · simpa [rowJob, hcase] using hne
  · simpa [rowJob, hcreated] using hdate
  · simpa [rowJob, hcase] using h.caseId

theorem isFailureCode_ne {code : String} (h : isFailureCode code = true) : code ≠ "" := by
  rintro rfl
  revert h
  decide

/-- The failures that `failLease` stores pass the job schema and carry no secret. -/
theorem storedFailure_ok {failure : JobFailure}
    (h : failure = exhaustedFailure ∨ ∃ code, failure = workerFailure code ∧ isFailureCode code = true) :
    (failure.code != "" && failure.message != "") = true ∧ sanitizedFailure failure = true := by
  rcases h with rfl | ⟨code, rfl, hcode⟩
  · decide +kernel
  · have hmessage : (utf16Length "The durable worker failed safely" ≤ 512 &&
        !"The durable worker failed safely".toList.any controlCharacter &&
        !containsCredential "The durable worker failed safely") = true := by decide +kernel
    simp only [Bool.and_eq_true] at hmessage
    constructor
    · simp [workerFailure, isFailureCode_ne hcode]
    · simp only [sanitizedFailure, workerFailure, Bool.and_eq_true]
      exact ⟨⟨⟨hcode, hmessage.1.1⟩, hmessage.1.2⟩, hmessage.2⟩

/-- The row of a job that an operation moved. -/
def DurableRow.moved (row : DurableRow ρ σ) (j : JobRow) (c : CaseRow ρ σ) : DurableRow ρ σ :=
  { row with job := j, case := c }

theorem leaseValid_bounds {lease : JobLease} (h : lease.valid = true) :
    datetime lease.acquiredAt = true ∧ lease.attempt ≤ 100 := by
  simp only [JobLease.valid, Bool.and_eq_true, decide_eq_true_eq] at h
  tauto

theorem rowToRecord_case {row : DurableRow ρ σ} {record : DurableReproductionRecord ρ σ}
    (h : rowToRecord row = some record) :
    record.snapshot.case = row.case.domainState.case ∧
      record.snapshot.result = row.case.domainState.result := by
  obtain ⟨failure, -, -, -, -, -, -, -, rfl, -⟩ := rowToRecord_some.mp h
  exact ⟨rfl, rfl⟩

/-- What a job step leaves of the case: the fixed columns as they were, the next
version, and a document that still fits the anchor. -/
structure CaseMoved (a : Anchor σ) (c c' : CaseRow ρ σ) : Prop where
  sourceDescriptor : c'.sourceDescriptor = c.sourceDescriptor
  createdAt : c'.createdAt = c.createdAt
  version : c'.version = c.version + 1
  updatedAt : datetime c'.updatedAt = true
  document : CaseOk a c'.domainState.case c'.domainState.result
  state : c'.domainState.case.state = c'.state

theorem caseMoved_advanced {row : DurableRow ρ σ} (hrow : ReadableRow row) {at' : Instant}
    (hat : datetime at' = true) : CaseMoved row.anchor row.case (row.case.advanced at') :=
  ⟨rfl, rfl, rfl, hat, hrow.case, hrow.state⟩

theorem caseMoved_rewritten {row : DurableRow ρ σ} {record : DurableReproductionRecord ρ σ}
    (hrecord : RecordOk record) (hcaseId : record.caseId = row.idempotency.caseId)
    (hdomain : SameDomain row.case (row.case.rewritten record)) :
    CaseMoved row.anchor row.case (row.case.rewritten record) := by
  refine ⟨rfl, rfl, rfl, hrecord.stamp.updatedAt, ?_, rfl⟩
  obtain ⟨hsource, hsample, -⟩ := hdomain
  have hkind := hrecord.case.resultKind
  simp only [DurableReproductionRecord.anchor] at hkind
  refine ⟨hrecord.case.valid, hrecord.case.id.trans hcaseId, hrecord.case.resultValid, ?_⟩
  simp only [CaseRow.rewritten, serializeCaseDomain] at hsource hsample
  simpa [DurableRow.anchor, CaseRow.rewritten, serializeCaseDomain, ← hsource, ← hsample] using hkind

theorem caseMoved_cancelled {row : DurableRow ρ σ} {record cancelled : DurableReproductionRecord ρ σ}
    (hrow : ReadableRow row) {read : DurableRow ρ σ} (hread : read.case = row.case)
    (hrecord : rowToRecord read = some record) {at' : Instant} (hcancel : cancelRecord record at' = some cancelled)
    (hat : datetime at' = true) : CaseMoved row.anchor row.case (row.case.cancelled cancelled at') := by
  obtain ⟨case, job, hcase, rfl⟩ := cancelRecord_some hcancel
  obtain ⟨-, hvalid, rfl⟩ := transitionCase_some hcase
  obtain ⟨hread', hres⟩ := rowToRecord_case hrecord
  rw [hread] at hread' hres
  refine ⟨rfl, rfl, rfl, hat, ⟨hvalid, ?_, ?_, ?_⟩, rfl⟩
  · exact (congrArg ReproCase.id hread').trans hrow.case.id
  · simpa [CaseRow.cancelled, serializeCaseDomain, hres] using hrow.case.resultValid
  · simpa [CaseRow.cancelled, serializeCaseDomain, hres] using hrow.case.resultKind

theorem JobStep.caseMoved {db : Db ρ σ} {row : DurableRow ρ σ} {j' : JobRow} {c' : CaseRow ρ σ}
    (h : JobStep db row.jobKey row.caseKey row.job row.case j' c') (hrow : ReadableRow row)
    (hdomain : SameDomain row.case c') : CaseMoved row.anchor row.case c' := by
  cases h with
  | claim ownerId acquiredAt expiresAt _ _ _ hl => exact caseMoved_advanced hrow (leaseValid_bounds hl).1
  | renew lease at' expiresAt _ _ _ _ _ _ _ _ _ hat _ => exact caseMoved_advanced hrow hat
  | complete lease record hkey hcaseId _ _ _ hrecord _ _ _ _ _ _ =>
    exact caseMoved_rewritten (validateRecord_iff.mp hrecord).1 (hcaseId.trans hkey.symm) hdomain
  | requeue lease nextAttemptAt at' _ _ _ _ _ _ _ hat _ => exact caseMoved_advanced hrow hat
  | exhaust lease failure nextAttemptAt at' _ _ _ _ _ _ hat _ => exact caseMoved_advanced hrow hat
  | request at' _ _ _ hat => exact caseMoved_advanced hrow hat
  | cancelQueued read record cancelled at' _ _ _ _ _ hread hrecord hcancel hat =>
    exact caseMoved_cancelled hrow hread hrecord hcancel hat
  | cancelRunning lease read record cancelled at' _ _ _ _ _ _ _ _ hread hrecord hcancel hat =>
    exact caseMoved_cancelled hrow hread hrecord hcancel hat
  | save record hkey _ _ _ hrecord _ _ _ _ _ =>
    exact caseMoved_rewritten (validateRecord_iff.mp hrecord).1 hkey.symm hdomain

omit [ResultDocument ρ] [RequestDocument σ] in
/-- A job that is leased has been attempted. -/
theorem attempt_pos_of_leased {j : JobRow} {lease : JobLease} (hl : j.leasedBy lease = true)
    (hactive : j.state = .queued ∨ j.state = .cancelled ∨ 1 ≤ j.attempt) : 1 ≤ j.attempt := by
  have hrunning := (JobRow.leasedBy_iff.mp hl).1
  rcases hactive with hqueued | hcancelled | hattempted
  · rw [hrunning] at hqueued
    cases hqueued
  · rw [hrunning] at hcancelled
    cases hcancelled
  · exact hattempted

/-- A job step leaves a job that its decoder accepts. -/
theorem JobStep.jobMoved {db : Db ρ σ} {row : DurableRow ρ σ} {j' : JobRow} {c' : CaseRow ρ σ}
    (h : JobStep db row.jobKey row.caseKey row.job row.case j' c') (hrow : ReadableRow row)
    (hchecks : j'.checks row.jobKey = true) :
    j'.version = row.job.version + 1 ∧ ∃ failure, jobFailure j' = some failure ∧
      JobOk row.anchor (rowJob row.idempotency.jobId j' j'.attempt failure) := by
  obtain ⟨failure, hfailure, hjob⟩ := hrow.job
  obtain ⟨hattempt, -, -, -, -, hdate, hactive, hshape⟩ := jobValid_iff.mp hjob.valid
  simp only [rowJob] at hattempt hdate hactive
  -- every step but the two that store a failure clears the failure columns
  have clear : j'.state ≠ .failed → j'.caseId = row.job.caseId → j'.createdAt = row.job.createdAt →
      j'.attempt ≤ 100 → datetime j'.updatedAt = true →
      (j'.state = .queued ∨ j'.state = .cancelled ∨ 1 ≤ j'.attempt) → ∃ failure, jobFailure j' = some failure ∧
        JobOk row.anchor (rowJob row.idempotency.jobId j' j'.attempt failure) := by
    intro hs hc hcr ha hu hact
    refine ⟨none, jobFailure_of_checks hchecks hs, hjob.moved hc hcr ha hu hact ?_ rfl rfl⟩
    simpa using hs
  cases h with
  | claim ownerId acquiredAt expiresAt _ _ _ hl =>
    obtain ⟨hat, hbound⟩ := leaseValid_bounds hl
    exact ⟨rfl, clear (by simp [JobRow.claimed]) rfl rfl hbound hat (.inr (.inr (Nat.succ_pos _)))⟩
  | renew lease at' expiresAt _ _ hs _ _ _ _ _ _ hat _ =>
    exact ⟨rfl, clear (by simp [JobRow.renewed, hs]) rfl rfl hattempt hat hactive⟩
  | complete lease record _ _ _ _ _ hrecord _ hl hra _ hterminal _ =>
    have hok := (validateRecord_iff.mp hrecord).1
    obtain ⟨-, -, -, hfail, -, -, -, hsh⟩ := jobValid_iff.mp hok.job.valid
    have hone := attempt_pos_of_leased hl hactive
    exact ⟨rfl, record.snapshot.job.failure, jobFailure_of_columns rfl rfl rfl,
      hjob.moved rfl rfl hattempt hok.stamp.updatedAt (.inr (.inr hone)) hsh hfail hok.job.failure⟩
  | requeue lease nextAttemptAt at' _ _ _ _ _ _ _ hat _ =>
    exact ⟨rfl, clear (by simp [JobRow.failed]) rfl rfl hattempt hat (.inl rfl)⟩
  | exhaust lease stored nextAttemptAt at' _ _ hl _ _ _ hat hstored =>
    have hone := attempt_pos_of_leased hl hactive
    obtain ⟨hne, hsan⟩ := storedFailure_ok (hstored.imp And.left id)
    exact ⟨rfl, some stored, jobFailure_of_columns rfl rfl rfl,
      hjob.moved rfl rfl hattempt hat (.inr (.inr hone)) rfl hne hsan⟩
  | request at' _ hs _ hat =>
    exact ⟨rfl, clear (by simp [JobRow.cancellationRequested, hs]) rfl rfl hattempt hat hactive⟩
  | cancelQueued read record cancelled at' _ _ _ _ _ _ _ _ hat =>
    exact ⟨rfl, clear (by simp [JobRow.cancelledQueued]) rfl rfl hattempt hat (.inr (.inl rfl))⟩
  | cancelRunning lease read record cancelled at' _ _ _ _ _ _ _ _ _ _ _ hat =>
    exact ⟨rfl, clear (by simp [JobRow.cancelledRunning]) rfl rfl hattempt hat (.inr (.inl rfl))⟩
  | save record _ _ _ _ hrecord hqueued _ _ hra _ =>
    have hok := (validateRecord_iff.mp hrecord).1
    exact ⟨rfl, clear (by simp [JobRow.saved, hqueued]) rfl rfl (by simpa [JobRow.saved, hra] using hattempt)
      hok.stamp.updatedAt (.inl hqueued)⟩

/-- Every job step leaves the row readable, under the same anchor. -/
theorem JobWrite.readable [Sha256] {db db' : Db ρ σ} {row : DurableRow ρ σ} {j' : JobRow}
    {c' : CaseRow ρ σ} (hw : JobWrite db db' row.jobKey row.caseKey row.job j' row.case c')
    (hrow : ReadableRow row) (hdomain : SameDomain row.case c') :
    ReadableRow (row.moved j' c') ∧ (row.moved j' c').anchor = row.anchor := by
  have hjobChecks := hw.jobAllowed
  have hcaseChecks := hw.caseAllowed
  simp only [jobUpdateAllowed, Bool.and_eq_true] at hjobChecks
  simp only [caseUpdateAllowed, CaseRow.checks, Bool.and_eq_true, decide_eq_true_eq] at hcaseChecks
  have hc := hw.step.caseMoved hrow hdomain
  obtain ⟨hjv, hj⟩ := hw.step.jobMoved hrow hjobChecks.2
  have hanchor : (row.moved j' c').anchor = row.anchor := by
    simp [DurableRow.anchor, DurableRow.moved, hc.sourceDescriptor, hc.createdAt, hdomain.1, hdomain.2.1,
      hdomain.2.2]
  refine ⟨⟨hanchor ▸ hrow.anchor, hanchor ▸ hc.document, hc.state, hanchor ▸ hj, ?_, ?_⟩, hanchor⟩
  · show c'.version = j'.version
    rw [hc.version, hjv, hw.versions]
  · have hb := hw.bounded
    have hv := hw.versions
    refine ⟨?_, ?_, ?_, hc.updatedAt⟩
    · show 1 ≤ c'.version
      omega
    · show c'.version ≤ maxSafeInteger
      rw [hc.version]
      omega
    · show c'.createdAt ≤ c'.updatedAt
      exact hcaseChecks.2.1.2

end ReproForge
