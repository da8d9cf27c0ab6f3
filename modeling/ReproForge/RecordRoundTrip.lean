import ReproForge.LeasedRows
import ReproForge.Suspension

/-!
# The round trip of a record

A record that a client found and edited goes into the rows of its case and its
job through `save` or `completeLease`, and comes back through the next lookup of
its owner. What the two writes take from it, what they take from elsewhere, and
when the lookup returns what the write returned.
-/
namespace ReproForge

open KeyedTable Transactions Transactions.Tx Relation

variable {ρ σ : Type}

/-! ## Records as documents -/

/-- A record as its client holds it: the times of its job are texts. The other
times are spelled as `toISOString` does, or stay in the document of the case. -/
structure RecordDocument (ρ σ : Type) where
  record : DurableReproductionRecord ρ σ
  jobCreatedAt : String
  jobUpdatedAt : String

/-- The record beside the texts. -/
def DurableReproductionRecord.untimed (record : DurableReproductionRecord ρ σ) : DurableReproductionRecord ρ σ :=
  { record with
    snapshot := { record.snapshot with job := { record.snapshot.job with createdAt := 0, updatedAt := 0 } } }

/-- Equality as JSON. -/
structure RecordDocument.Same (a b : RecordDocument ρ σ) : Prop where
  record : a.record.untimed = b.record.untimed
  jobCreatedAt : a.jobCreatedAt = b.jobCreatedAt
  jobUpdatedAt : a.jobUpdatedAt = b.jobUpdatedAt

/-- What `rowToRecord` makes of the columns. -/
def RecordDocument.read (record : DurableReproductionRecord ρ σ) : RecordDocument ρ σ :=
  ⟨record, isoString record.snapshot.job.createdAt, isoString record.snapshot.job.updatedAt⟩

/-! ## The two writes -/

inductive RecordWrite where
  | save : Nat → RecordWrite
  | completeLease : JobLease → RecordWrite
  deriving DecidableEq

section writes

variable [ResultDocument ρ] [RequestDocument σ]

def RecordWrite.statement : RecordWrite → DurableReproductionRecord ρ σ →
    Statement ρ σ (DurableReproductionRecord ρ σ)
  | .save expectedVersion, record => ReproForge.save record expectedVersion
  | .completeLease lease, record => ReproForge.completeLease lease record

omit [ResultDocument ρ] [RequestDocument σ] in
/-- What a write leaves in the job of its record: the creation time that was
there, and the time of the record for that of the job. -/
structure StoredJob (record : DurableReproductionRecord ρ σ) (j j' : JobRow) : Prop where
  caseId : j'.caseId = j.caseId
  createdAt : j'.createdAt = j.createdAt
  updatedAt : j'.updatedAt = record.updatedAt
  attempt : j'.attempt = record.snapshot.job.attempt
  state : j'.state = record.snapshot.job.state
  progressPhase : j'.progressPhase = record.snapshot.job.progressPhase
  failure : jobFailure j' = some record.snapshot.job.failure

/-- The rows that a write of a record commits. -/
structure RecordWritten [Sha256] (record : DurableReproductionRecord ρ σ) (db db' : Db ρ σ) (j j' : JobRow)
    (c : CaseRow ρ σ) : Prop where
  valid : validateRecord record false = true
  version : c.version = record.version
  stored : StoredJob record j j'
  write : JobWrite db db' (recordJobKey record) (recordCaseKey record) j j' c (c.rewritten record)

variable [Sha256] {db db' : Db ρ σ} {record reply : DurableReproductionRecord ρ σ}

theorem save_written {expectedVersion : Nat} (h : save record expectedVersion db = (.ok reply, db')) :
    reply = { record with version := record.version + 1 } ∧ ∃ j j' c, RecordWritten record db db' j j' c := by
  obtain ⟨hreply, j, c, hw⟩ := save_ok h
  refine ⟨hreply, j, j.saved record, c, ?_⟩
  simp only [save, saveInTransaction, bind_ok, require_ok] at h
  obtain ⟨_, _, ⟨hvalid, rfl⟩, _, _, ⟨hversion, rfl⟩, _, _, ⟨-, rfl⟩, _, t, hsave, -⟩ := h
  obtain ⟨c', hc', hcondition, -⟩ := saveCase_ok hsave
  obtain rfl := Option.some.inj (hw.case.symm.trans hc')
  simp only [Bool.and_eq_true, beq_iff_eq] at hversion hcondition
  exact {
    valid := hvalid
    version := hcondition.trans hversion.1.symm
    stored := ⟨rfl, rfl, rfl, rfl, rfl, rfl, jobFailure_of_columns rfl rfl rfl⟩
    write := hw }

theorem completeLease_written {lease : JobLease} (h : completeLease lease record db = (.ok reply, db')) :
    reply = { record with version := record.version + 1 } ∧ ∃ j j' c, RecordWritten record db db' j j' c := by
  obtain ⟨hreply, j, c, hleased, hkey, hcaseKey, hw⟩ := completeLease_ok h
  rw [hkey, hcaseKey] at hw
  refine ⟨hreply, j, j.completed record, c, ?_⟩
  simp only [completeLease, bind_ok, require_ok, read_ok] at h
  obtain ⟨_, _, ⟨-, rfl⟩, _, _, ⟨hvalid, rfl⟩, _, _, ⟨haligned, rfl⟩, _, _, ⟨rfl, rfl⟩, _, _, ⟨-, rfl⟩, _, t,
    hsave, -⟩ := h
  obtain ⟨c', hc', hcondition, -⟩ := saveCase_ok hsave
  obtain rfl := Option.some.inj (hw.case.symm.trans hc')
  simp only [Bool.and_eq_true, beq_iff_eq] at haligned hcondition
  have hattempt : j.attempt = record.snapshot.job.attempt :=
    (JobRow.leasedBy_iff.mp hleased).2.2.1.trans haligned.1.2.symm
  exact {
    valid := hvalid
    version := hcondition
    stored := ⟨rfl, rfl, rfl, hattempt, rfl, rfl, jobFailure_of_columns rfl rfl rfl⟩
    write := hw }

theorem RecordWrite.written {write : RecordWrite} (h : write.statement record db = (.ok reply, db')) :
    reply = { record with version := record.version + 1 } ∧ ∃ j j' c, RecordWritten record db db' j j' c := by
  cases write with
  | save expectedVersion => exact save_written h
  | completeLease lease => exact completeLease_written h

/-! ## The lookup that follows -/

omit [Sha256] in
/-- The one row of a case is what its owner finds. -/
theorem findByCaseId_joined (hdb : Lockstep db) {scope : TenantScope} {row : DurableRow ρ σ}
    {found : DurableReproductionRecord ρ σ} (hscope : scope.valid = true) (hrow : Joined db row)
    (htenant : row.key.tenantId = scope.tenantId) (hcaller : row.key.callerId = scope.callerId)
    (hfound : rowToRecord row = some found) :
    findByCaseId scope row.idempotency.caseId db = (.ok (some found), db) := by
  have hmatch : ∀ other ∈ durableSelect db, (other.key.tenantId == scope.tenantId &&
      other.key.callerId == scope.callerId && other.caseKey.id == row.idempotency.caseId) = true → other = row := by
    intro other hother hcondition
    simp only [Bool.and_eq_true, beq_iff_eq] at hcondition
    obtain ⟨⟨hsame, -⟩, hid⟩ := hcondition
    have hkey : other.caseKey = row.caseKey := by
      rw [DurableRow.caseKey, DurableRow.caseKey, hsame, htenant]
      exact congrArg (Key.mk scope.tenantId) hid
    have hjoined := mem_durableSelect.mp hother
    exact hjoined.eq_of_key hrow (hdb.caseUnique other row hjoined hrow hkey)
  have hself : (row.key.tenantId == scope.tenantId && row.key.callerId == scope.callerId &&
      row.caseKey.id == row.idempotency.caseId) = true := by
    simp [htenant, hcaller, DurableRow.caseKey]
  have hselect : (durableSelect db).find? (fun row' => row'.key.tenantId == scope.tenantId &&
      row'.key.callerId == scope.callerId && row'.caseKey.id == row.idempotency.caseId) = some row := by
    cases hfirst : (durableSelect db).find? (fun row' => row'.key.tenantId == scope.tenantId &&
        row'.key.callerId == scope.callerId && row'.caseKey.id == row.idempotency.caseId) with
    | none => exact absurd hself (List.find?_eq_none.mp hfirst row (mem_durableSelect.mpr hrow))
    | some other =>
      have hcondition := List.find?_some hfirst
      rw [hmatch other (List.mem_of_find?_eq_some hfirst) hcondition]
  refine bind_ok.mpr ⟨(), db, require_ok.mpr ⟨hscope, rfl⟩, ?_⟩
  simp only [find, hselect, hfound]

/-- The record as the rows give it back. -/
def restored (createdAt : Instant) (reply : DurableReproductionRecord ρ σ) : DurableReproductionRecord ρ σ :=
  { reply with
    snapshot := { reply.snapshot with
      job := { reply.snapshot.job with createdAt := createdAt, updatedAt := reply.updatedAt } } }

/-- The row that a write leaves is read as the record that it returned, but for the times of the job. -/
theorem RecordWritten.restored {row : DurableRow ρ σ} {j' : JobRow} (h : RecordWritten record db db' row.job j' row.case)
    (hrow : Joined db row) (hanchor : row.anchor = record.anchor) :
    rowRecord (row.moved j' (row.case.rewritten record)) (row.case.rewritten record).version j'.attempt
        record.snapshot.job.failure =
      ReproForge.restored row.job.createdAt { record with version := record.version + 1 } := by
  obtain ⟨hok, -⟩ := validateRecord_iff.mp h.valid
  simp only [DurableRow.anchor, DurableReproductionRecord.anchor, Anchor.mk.injEq] at hanchor
  obtain ⟨hcaller, hcaseId, hhash, hcreated, hkey, hjobId, hbudget, hrequest, -, -, -, htenant⟩ := hanchor
  have hjob : rowJob record.jobId j' j'.attempt record.snapshot.job.failure =
      { record.snapshot.job with createdAt := row.job.createdAt, updatedAt := record.updatedAt } := by
    have hid : record.snapshot.job.id = record.jobId := hok.job.id
    have hjobCase : record.snapshot.job.caseId = j'.caseId := by
      rw [h.stored.caseId, hrow.caseId, hcaseId]
      exact hok.job.caseId
    rw [rowJob, h.stored.attempt, h.stored.createdAt, h.stored.updatedAt, h.stored.state, h.stored.progressPhase,
      ← hid, ← hjobCase]
  simp only [rowRecord, rowSnapshot, DurableRow.moved, CaseRow.rewritten, serializeCaseDomain, ReproForge.restored,
    hcaller, hcaseId, hhash, hcreated, hkey, hjobId, hbudget, hrequest, htenant, h.version]
  rw [hjob]

/-- After a write, the owner of the case finds what the write returned, but for the times of the job. -/
theorem RecordWritten.found {j j' : JobRow} {c : CaseRow ρ σ} (h : RecordWritten record db db' j j' c)
    (hdb : Lockstep db) (hanchored : Anchored db record) {scope : TenantScope} (hscope : scope.valid = true)
    (htenant : scope.tenantId = record.tenantId) (hcaller : scope.callerId = record.callerId) :
    findByCaseId scope record.caseId db' =
      (.ok (some (ReproForge.restored j.createdAt { record with version := record.version + 1 })), db') := by
  obtain ⟨row, hrow, hanchor⟩ := hanchored
  have hkeys := recordKeys_of_anchor hanchor
  have hw := h.write
  obtain rfl : row.job = j := Option.some.inj ((hkeys.1 ▸ hrow.job).symm.trans hw.job)
  obtain rfl : row.case = c := Option.some.inj ((hkeys.2 ▸ hrow.case).symm.trans hw.case)
  rw [← hkeys.1, ← hkeys.2] at hw
  have hdomain : SameDomain row.case (row.case.rewritten record) :=
    ⟨(congrArg Anchor.repositorySource hanchor).symm, (congrArg Anchor.sampleId hanchor).symm,
      (congrArg Anchor.schemaVersion hanchor).symm⟩
  have hmoves : Moves db db' row j' (row.case.rewritten record) := ⟨hrow, hw, hdomain⟩
  have hreadable := (hw.readable (hdb.readable row hrow) hdomain).1
  obtain ⟨next, hnext⟩ := readableRow_iff.mp hreadable
  have hread : next = ReproForge.restored row.job.createdAt { record with version := record.version + 1 } := by
    obtain ⟨failure, hfailure, -, -, -, -, -, -, rfl, -⟩ := rowToRecord_some.mp hnext
    obtain rfl : record.snapshot.job.failure = failure := Option.some.inj (h.stored.failure.symm.trans hfailure)
    exact h.restored hrow hanchor
  have hrowTenant : row.key.tenantId = record.tenantId := congrArg Anchor.tenantId hanchor
  have hrowCaller : row.key.callerId = record.callerId := congrArg Anchor.callerId hanchor
  have hcase : row.idempotency.caseId = record.caseId := congrArg Anchor.caseId hanchor
  have hfind := findByCaseId_joined (hmoves.lockstep hdb) hscope hmoves.joined_moved
    (hrowTenant.trans htenant.symm) (hrowCaller.trans hcaller.symm) hnext
  rw [← hread, ← hcase]
  exact hfind

end writes

/-! ## The creation time of a job -/

section runs

variable [ResultDocument ρ] [RequestDocument σ] [Sha256] {db db' : Db ρ σ}
  {found : List (DurableReproductionRecord ρ σ)} {record : DurableReproductionRecord ρ σ}

/-- The job of a record that was found is never another one with the same key. -/
theorem Turn.job_createdAt (h : Turn db db') (hi : Intact db found) (hfound : record ∈ found) {j' : JobRow}
    (hj' : db'.jobs.get (recordJobKey record) = some j') :
    ∃ j, db.jobs.get (recordJobKey record) = some j ∧ j'.createdAt = j.createdAt := by
  cases h with
  | change _ hc _ =>
    obtain ⟨j, hj, -⟩ := hc.job_back hj'
    obtain ⟨k, hk, he⟩ := (Write.change hc).job_createdAt hj
    obtain rfl := Option.some.inj (hj'.symm.trans hk)
    exact ⟨j, hj, he⟩
  | start hw =>
    rename_i limits input
    by_cases hkey : recordJobKey record = recordJobKey input.record
    · exfalso
      rcases hi.anchored record hfound with ⟨row, hrow, hanchor⟩ | hdeleted
      · have hjobKey := (recordKeys_of_anchor hanchor).1
        have hj := hrow.job
        rw [hjobKey, hkey, hw.job] at hj
        cases hj
      · have htenant : record.tenantId = input.record.tenantId := congrArg Key.tenantId hkey
        have hactive := tenantActive_iff.mp hw.active
        rw [htenant, hactive] at hdeleted
        cases hdeleted
    · rw [hw.result, Table.get_insert_other hkey] at hj'
      exact ⟨j', hj', rfl⟩
  | purged hp =>
    rw [hp.rest, purge, Table.get_delete, Option.filter_eq_some_iff] at hj'
    exact ⟨j', hj'.1, rfl⟩

theorem turns_job_createdAt (h : ReflTransGen Turn db db') (hi : Intact db found) (hfound : record ∈ found)
    {j' : JobRow} (hj' : db'.jobs.get (recordJobKey record) = some j') :
    ∃ j, db.jobs.get (recordJobKey record) = some j ∧ j'.createdAt = j.createdAt := by
  induction h generalizing j' with
  | refl => exact ⟨j', hj', rfl⟩
  | tail hbefore ht ih =>
    obtain ⟨k, hk, he⟩ := ht.job_createdAt (turns_intact hbefore hi) hfound hj'
    obtain ⟨j, hj, he'⟩ := ih hk
    exact ⟨j, hj, he.trans he'⟩

/-- The jobs of the records found so far were created when the records say. -/
def Hosted.JobsDated (w : Hosted ρ σ) : Prop :=
  ∀ record ∈ w.found, ∀ j, w.db.jobs.get (recordJobKey record) = some j →
    j.createdAt = record.snapshot.job.createdAt

omit [Sha256] in
theorem rowToRecord_job {row : DurableRow ρ σ} (h : rowToRecord row = some record) :
    recordJobKey record = row.jobKey ∧ record.snapshot.job.createdAt = row.job.createdAt := by
  obtain ⟨failure, -, -, -, -, -, -, -, rfl, -⟩ := rowToRecord_some.mp h
  exact ⟨rfl, rfl⟩

variable [ContentHash]

theorem Hosted.JobsDated.step {w : Hosted ρ σ} {action : HostedAction ρ σ} (h : w.JobsDated) (hs : w.Sound)
    (hp : w.Permitted action) : (Hosted.step action w).JobsDated := by
  have kept : ∀ r ∈ w.found, ∀ j', (Hosted.step action w).db.jobs.get (recordJobKey r) = some j' →
      j'.createdAt = r.snapshot.job.createdAt := by
    intro r hr j' hj'
    obtain ⟨j, hj, he⟩ := turns_job_createdAt (Hosted.step_turns hs hp) hs hr hj'
    exact he.trans (h r hr j hj)
  cases action with
  | find query =>
    rw [Hosted.step] at kept ⊢
    split
    · rename_i r db' hq
      intro record hrecord j hj
      rcases List.mem_cons.mp hrecord with rfl | hold
      · obtain ⟨row, hrow, hread⟩ := query.statement_some hq
        obtain ⟨hkey, hcreated⟩ := rowToRecord_job hread
        have hrowJob := hrow.job
        rw [← hkey] at hrowJob
        obtain rfl := Option.some.inj (hj.symm.trans hrowJob)
        exact hcreated.symm
      · exact h record hold j hj
    · exact h
  | _ => exact kept

/-- Whatever was found, edited and stored in any run of the hosted system: the owner
of the case finds it as it was returned if and only if the job kept the spelling of its
creation time, and was given the time of the record. -/
theorem record_round_trip {now : Instant} {actions : List (HostedAction ρ σ)}
    (hrun : Runs.Guarded Hosted.step Hosted.Permitted actions (Hosted.initial now))
    (hfound : record ∈ (Runs.run Hosted.step actions (Hosted.initial now)).found) {edit : Edit ρ}
    {write : RecordWrite} {attempts : List Attempt} {reply : DurableReproductionRecord ρ σ}
    (hwrite : runSerializableTransaction 3 attempts (write.statement (record.edited edit))
      (Runs.run Hosted.step actions (Hosted.initial now)).db = (.ok reply, db'))
    {scope : TenantScope} (hscope : scope.valid = true) (htenant : scope.tenantId = record.tenantId)
    (hcaller : scope.callerId = record.callerId) (createdAt updatedAt : String) :
    ∃ next, findByCaseId scope record.caseId db' = (.ok (some next), db') ∧
      ((RecordDocument.read next).Same ⟨reply, createdAt, updatedAt⟩ ↔
        createdAt = isoString record.snapshot.job.createdAt ∧ updatedAt = isoString edit.updatedAt) := by
  have hstep : ∀ (w : Hosted ρ σ) action, w.Sound ∧ w.JobsDated → w.Permitted action →
      (Hosted.step action w).Sound ∧ (Hosted.step action w).JobsDated :=
    fun w action hw hp => ⟨hw.1.step hp, hw.2.step hw.1 hp⟩
  have hinitial : (Hosted.initial now : Hosted ρ σ).Sound ∧ (Hosted.initial now : Hosted ρ σ).JobsDated :=
    ⟨Hosted.sound_initial now, fun _ => nofun⟩
  obtain ⟨hsound, hdated⟩ := Runs.run_invariant hstep hinitial hrun
  obtain ⟨hreply, j, j', c, hwritten⟩ := RecordWrite.written (runSerializableTransaction_ok hwrite)
  have hj : (Runs.run Hosted.step actions (Hosted.initial now)).db.jobs.get (recordJobKey record) = some j :=
    hwritten.write.job
  have hanchored : Anchored (Runs.run Hosted.step actions (Hosted.initial now)).db (record.edited edit) :=
    (hsound.anchored record hfound).resolve_right (hsound.vacant (recordJobKey record) j hj)
  have hnext := hwritten.found hsound.lockstep hanchored hscope htenant hcaller
  refine ⟨_, hnext, ?_⟩
  rw [hdated record hfound j hj, ← hreply]
  have hupdated : reply.updatedAt = edit.updatedAt := by rw [hreply]; rfl
  constructor
  · intro h
    exact ⟨h.jobCreatedAt.symm, hupdated ▸ h.jobUpdatedAt.symm⟩
  · rintro ⟨rfl, rfl⟩
    exact ⟨rfl, rfl, by rw [← hupdated]; rfl⟩

end runs

end ReproForge

/-! ## A sample round trip -/

namespace ReproForge.Sample.RoundTrips

open Sample Sample.Suspension

def owner : TenantScope := ⟨"caller", "caller", "acme"⟩

/-- The record of the first start is found. -/
def lookedUp : List (HostedAction Empty Empty) := enlisted ++ [.find (.findByCaseId owner "case-1")]

def stored : Db Empty Empty := (Runs.run Hosted.step lookedUp (Hosted.initial opening)).db

/-- The edit that stores a later time, in the job as well. -/
def dated : Edit Empty :=
  { touched with job := { firstRecord.snapshot.job with updatedAt := opening + 1000 } }

def saving (edit : Edit Empty) : Except DurableError (DurableReproductionRecord Empty Empty) × Db Empty Empty :=
  runSerializableTransaction 3 [] ((RecordWrite.save 1).statement (firstRecord.edited edit)) stored

def looked (edit : Edit Empty) : Except DurableError (Option (DurableReproductionRecord Empty Empty)) :=
  (findByCaseId owner "case-1" (saving edit).2).1

/-- The times of the job of a record. -/
def jobTimes (record : DurableReproductionRecord Empty Empty) : Instant × Instant :=
  (record.snapshot.job.createdAt, record.snapshot.job.updatedAt)

theorem evaluated :
    firstRecord ∈ (Runs.run Hosted.step lookedUp (Hosted.initial opening)).found ∧
    ((saving touched).1.toOption.map jobTimes = some (opening, opening) ∧
      ((looked touched).toOption.bind id).map jobTimes = some (opening, opening + 1000)) ∧
    (saving dated).1.toOption.isSome = true ∧
    firstRecord.caseId = "case-1" ∧ firstRecord.tenantId = "acme" ∧ firstRecord.callerId = "caller" := by
  decide +kernel

end ReproForge.Sample.RoundTrips

namespace ReproForge

open Sample Sample.Suspension Sample.RoundTrips

theorem lookup_permitted : Runs.Guarded Hosted.step Hosted.Permitted lookedUp (Hosted.initial opening) :=
  ⟨trivial, fun _ h => h.elim, trivial, trivial⟩

theorem ok_of_toOption {ε α : Type} {x : Except ε α} {a : α} (h : x.toOption = some a) : x = .ok a := by
  cases x with
  | ok b => exact congrArg Except.ok (Option.some.inj h)
  | error e => cases h

theorem run_of_toOption {ε α β : Type} {run : Except ε α × β} {a : α} (h : run.1.toOption = some a) :
    run = (.ok a, run.2) := by
  rw [← ok_of_toOption h]

theorem record_round_trip_sample :
    ∃ reply next, (saving dated).1 = .ok reply ∧
      findByCaseId owner "case-1" (saving dated).2 = (.ok (some next), (saving dated).2) ∧
      (RecordDocument.read next).Same (RecordDocument.read reply) := by
  obtain ⟨hfound, -, hsaved, hcase, htenant, hcaller⟩ := evaluated
  obtain ⟨reply, hreply⟩ := Option.isSome_iff_exists.mp hsaved
  have hwrite := run_of_toOption hreply
  obtain ⟨hedited, -⟩ := RecordWrite.written (runSerializableTransaction_ok hwrite)
  obtain ⟨next, hnext, hsame⟩ := record_round_trip lookup_permitted hfound hwrite
    (by decide : owner.valid = true) htenant.symm hcaller.symm (isoString reply.snapshot.job.createdAt)
    (isoString reply.snapshot.job.updatedAt)
  rw [hcase] at hnext
  refine ⟨reply, next, ok_of_toOption hreply, hnext, hsame.mpr ⟨?_, ?_⟩⟩
  · rw [hedited]
    rfl
  · rw [hedited]
    rfl

/-- A client stores a later time of a record and leaves its job alone: the owner
finds the job with that time, which is not what the write returned. -/
theorem untouched_job_differs :
    firstRecord ∈ (Runs.run Hosted.step lookedUp (Hosted.initial opening)).found ∧
      ∃ reply next, (saving touched).1 = .ok reply ∧
        (findByCaseId owner firstRecord.caseId (saving touched).2).1 = .ok (some next) ∧
        ¬ (RecordDocument.read next).Same (RecordDocument.read reply) := by
  obtain ⟨hfound, ⟨hsaved, hlooked⟩, -, hcase, -⟩ := evaluated
  obtain ⟨reply, hreply, htimes⟩ := Option.map_eq_some_iff.mp hsaved
  obtain ⟨next, hnext, hnextTimes⟩ := Option.map_eq_some_iff.mp hlooked
  obtain ⟨_, ho, rfl⟩ := Option.bind_eq_some_iff.mp hnext
  rw [hcase]
  refine ⟨hfound, reply, next, ok_of_toOption hreply, ok_of_toOption ho, fun hsame => ?_⟩
  have htexts : isoString next.snapshot.job.updatedAt = isoString reply.snapshot.job.updatedAt := hsame.jobUpdatedAt
  simp only [jobTimes, Prod.mk.injEq] at htimes hnextTimes
  rw [htimes.2, hnextTimes.2] at htexts
  exact absurd htexts (by decide +kernel)

end ReproForge
