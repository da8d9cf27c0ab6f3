import ReproForge.ActiveJobs
import ReproForge.Lockstep

/-!
# Rows under lease

What holds of the rows of every reachable database and what the recovery of a
lease relies on: cases pass their constraints, a job under lease carries a lease
that the schema accepts, the retry budget is the one a job began with, and a
reservation in force is no younger than its job.
-/
namespace ReproForge

open KeyedTable Relation

variable {ρ σ : Type}

/-- Every case row passes its CHECK constraints. -/
def CasesChecked (db : Db ρ σ) : Prop := ∀ key c, db.cases.get key = some c → c.checks key = true

/-- The schema accepts any lease that the row carries. -/
def LeaseFits (key : Key) (j : JobRow) : Prop :=
  ∀ lease : JobLease, lease.tenantId = key.tenantId → lease.jobId = key.id → j.leasedBy lease = true →
    lease.valid = true

def LeasesFit (db : Db ρ σ) : Prop := ∀ key j, db.jobs.get key = some j → LeaseFits key j

/-- The retry budget that `INSERT INTO jobs` gives. -/
def BudgetsKept (db : Db ρ σ) : Prop := ∀ key j, db.jobs.get key = some j → j.maxAttempts = 3

/-- A reservation in force passes its constraints and is no younger than its job. -/
def LedgerFits (db : Db ρ σ) : Prop :=
  ∀ key qkey q, db.quotaLedger.get qkey = some q → Reserves key qkey q → q.state = .reserved →
    q.checks qkey = true ∧ ∃ j, db.jobs.get key = some j ∧ q.createdAt ≤ j.createdAt

structure RowsFit (db : Db ρ σ) : Prop where
  jobs : JobsChecked db
  cases : CasesChecked db
  leases : LeasesFit db
  budgets : BudgetsKept db
  ledger : LedgerFits db

theorem initial_rowsFit (now : Instant) (tenants : Table String TenantRow) :
    RowsFit (Db.initial now tenants : Db ρ σ) where
  jobs := initial_jobsChecked now tenants
  cases := by intro key c h; cases h
  leases := by intro key j h; cases h
  budgets := by intro key j h; cases h
  ledger := by intro key qkey q h; cases h

/-! ## Leases -/

theorem leaseFits_of_not_running {key : Key} {j : JobRow} (h : j.state ≠ .running) : LeaseFits key j := by
  intro lease _ _ hl
  exact absurd (JobRow.leasedBy_iff.mp hl).1 h

theorem leaseFits_claimed {key : Key} {j : JobRow} {ownerId : String} {acquiredAt expiresAt : Instant}
    (h : (⟨acquiredAt, j.attempt + 1, expiresAt, key.id, ownerId, key.tenantId⟩ : JobLease).valid = true) :
    LeaseFits key (j.claimed ownerId acquiredAt expiresAt) := by
  intro lease htenant hjob hl
  obtain ⟨-, howner, hattempt, hacquired, hexpires⟩ := JobRow.leasedBy_iff.mp hl
  obtain ⟨acquiredAt', attempt', expiresAt', jobId', ownerId', tenantId'⟩ := lease
  simp only [JobRow.claimed, Option.some.injEq] at howner hattempt hacquired hexpires htenant hjob
  rw [← howner, ← hattempt, ← hacquired, ← hexpires, htenant, hjob]
  exact h

/-- A renewal moves the end of a valid lease to a later instant. -/
theorem leaseFits_renewed {key : Key} {j : JobRow} {expiresAt expiresAt' at' : Instant} (h : LeaseFits key j)
    (hs : j.state = .running) (he : j.leaseExpiresAt = some expiresAt) (hlater : expiresAt < expiresAt')
    (hdate : datetime expiresAt' = true) : LeaseFits key (j.renewed expiresAt' at') := by
  intro lease htenant hjob hl
  obtain ⟨-, howner, hattempt, hacquired, hexpires⟩ := JobRow.leasedBy_iff.mp hl
  have hend : expiresAt' = lease.expiresAt := by simpa [JobRow.renewed] using hexpires
  have hold := h { lease with expiresAt := expiresAt } htenant hjob
    (JobRow.leasedBy_iff.mpr ⟨hs, howner, hattempt, hacquired, he⟩)
  simp only [JobLease.valid, Bool.and_eq_true, decide_eq_true_eq] at hold ⊢
  obtain ⟨⟨⟨⟨⟨⟨⟨hacq, hpos⟩, hmax⟩, -⟩, hid⟩, howner⟩, htenant⟩, horder⟩ := hold
  rw [← hend]
  exact ⟨⟨⟨⟨⟨⟨⟨hacq, hpos⟩, hmax⟩, hdate⟩, hid⟩, howner⟩, htenant⟩, lt_trans horder hlater⟩

theorem JobStep.leaseFits [ResultDocument ρ] [RequestDocument σ] {db : Db ρ σ} {key caseKey : Key}
    {j j' : JobRow} {c c' : CaseRow ρ σ} (h : JobStep db key caseKey j c j' c') (hfits : LeaseFits key j) :
    LeaseFits key j' := by
  cases h with
  | claim ownerId acquiredAt expiresAt _ _ _ hl => exact leaseFits_claimed hl
  | renew lease at' expiresAt _ _ hs _ _ he _ _ hlater _ hdate =>
    exact leaseFits_renewed hfits hs he hlater hdate
  | complete lease record _ _ _ _ _ _ _ _ _ _ hterminal _ =>
    refine leaseFits_of_not_running ?_
    rcases hterminal with ht | ht <;> simp [JobRow.completed, ht]
  | requeue lease nextAttemptAt at' => exact leaseFits_of_not_running (by simp [JobRow.failed])
  | exhaust lease failure nextAttemptAt at' => exact leaseFits_of_not_running (by simp [JobRow.failed])
  | request at' => exact hfits
  | cancelQueued row record cancelled at' =>
    exact leaseFits_of_not_running (by simp [JobRow.cancelledQueued])
  | cancelRunning lease row record cancelled at' =>
    exact leaseFits_of_not_running (by simp [JobRow.cancelledRunning])
  | save record _ _ _ _ _ hqueued _ _ _ _ =>
    exact leaseFits_of_not_running (by simp [JobRow.saved, hqueued])

theorem JobStep.createdAt [ResultDocument ρ] [RequestDocument σ] {db : Db ρ σ} {key caseKey : Key}
    {j j' : JobRow} {c c' : CaseRow ρ σ} (h : JobStep db key caseKey j c j' c') :
    j'.createdAt = j.createdAt := by
  cases h <;> rfl

/-! ## The ledger -/

/-- A row that an update leaves reserved is one that it did not touch. -/
theorem reserved_of_update {t : Table Key QuotaRow} {p : Key → QuotaRow → Bool} {f : QuotaRow → QuotaRow}
    (hf : ∀ q, (f q).state ≠ .reserved) {qkey : Key} {q : QuotaRow}
    (hq : (t.update p (fun _ => f)).get qkey = some q) (hs : q.state = .reserved) : t.get qkey = some q := by
  rw [Table.get_update] at hq
  obtain ⟨r, hr, he⟩ := Option.map_eq_some_iff.mp hq
  split at he
  · rw [← he] at hs
    exact absurd hs (hf r)
  · exact he ▸ hr

variable [ResultDocument ρ] [RequestDocument σ] [Sha256]

/-- Jobs stay where they are, with the time they were created at. -/
theorem Write.job_createdAt {db db' : Db ρ σ} (h : Write db db') {key : Key} {j : JobRow}
    (hj : db.jobs.get key = some j) : ∃ j', db'.jobs.get key = some j' ∧ j'.createdAt = j.createdAt := by
  rcases h.job_cases key with he | ⟨caseKey, k, k', c, c', hw, hk'⟩ | ⟨limits, input, hw, hkey, -⟩
  · exact ⟨j, he.trans hj, rfl⟩
  · obtain rfl := Option.some.inj (hj.symm.trans hw.job)
    exact ⟨k', hk', hw.step.createdAt⟩
  · rw [hkey, hw.job] at hj
    cases hj

/-- A reservation in force after a write was there before or is the one that a start makes. -/
theorem Write.reserved_cases {db db' : Db ρ σ} (h : Write db db') {qkey : Key} {q : QuotaRow}
    (hq : db'.quotaLedger.get qkey = some q) (hs : q.state = .reserved) :
    db.quotaLedger.get qkey = some q ∨
      ∃ limits input, StartWrite limits input db db' ∧ qkey = reservationKey input.quotaReservation ∧
        q = newReservation input.quotaReservation input.record.snapshot.job.createdAt db.now := by
  cases h with
  | change hc =>
    left
    cases hc with
    | job hw _ =>
      rw [hw.result] at hq
      simp only at hq
      split at hq
      · exact reserved_of_update (fun q => by simp [QuotaRow.released]) hq hs
      · exact hq
    | audit key row hd => simpa [hd] using hq
    | outbox hw _ => simpa [hw.result] using hq
    | environment now tenants artifacts deletions hd _ => simpa [hd] using hq
  | start hw =>
    rename_i limits input
    by_cases hkey : qkey = reservationKey input.quotaReservation
    · right
      refine ⟨limits, input, hw, hkey, ?_⟩
      rw [hw.result, hkey, Table.get_insert_self (by simp [expiredLedger, hw.reservation])] at hq
      exact (Option.some.inj hq).symm
    · left
      rw [hw.result, Table.get_insert_other hkey] at hq
      exact reserved_of_update (fun q => by simp [QuotaRow.expired]) hq hs

theorem Write.ledgerFits {db db' : Db ρ σ} (h : LedgerFits db) (hw : Write db db') : LedgerFits db' := by
  intro key qkey q hq hres hs
  rcases hw.reserved_cases hq hs with hold | ⟨limits, input, hstart, rfl, rfl⟩
  · obtain ⟨hchecks, j, hj, hle⟩ := h key qkey q hold hres hs
    obtain ⟨j', hj', he⟩ := hw.job_createdAt hj
    exact ⟨hchecks, j', hj', he ▸ hle⟩
  · refine ⟨hstart.reservationChecks, newJob input.record db.now, ?_, le_refl _⟩
    have haligned := hstart.aligned
    simp only [DurableStartInput.aligned, Bool.and_eq_true, beq_iff_eq] at haligned
    have hkey : key = recordJobKey input.record := by
      have htenant : input.quotaReservation.tenantId = key.tenantId := hres.1
      have hid : input.quotaReservation.jobId = key.id := Option.some.inj hres.2.1
      have he : key = ⟨key.tenantId, key.id⟩ := rfl
      rw [he, ← htenant, ← hid, haligned.1.1.2, haligned.2]
      rfl
    rw [hkey, hstart.result]
    exact Table.get_insert_self hstart.job

/-! ## Writes and runs -/

theorem Write.casesChecked {db db' : Db ρ σ} (h : CasesChecked db) (hw : Write db db') : CasesChecked db' := by
  intro key c hc
  cases hw with
  | change hchange =>
    cases hchange with
    | job hw _ =>
      rw [hw.result] at hc
      rcases Table.get_set_cases hw.case hc with ⟨rfl, rfl⟩ | hold
      · have ha := hw.caseAllowed
        simp only [caseUpdateAllowed, Bool.and_eq_true] at ha
        exact ha.2
      · exact h key c hold
    | audit key' row hd => exact h key c (by simpa [hd] using hc)
    | outbox hw _ => exact h key c (by simpa [hw.result] using hc)
    | environment now tenants artifacts deletions hd _ => exact h key c (by simpa [hd] using hc)
  | start hstart =>
    rename_i limits input
    rw [hstart.result] at hc
    by_cases hkey : key = recordCaseKey input.record
    · rw [hkey, Table.get_insert_self hstart.case] at hc
      rw [hkey, ← Option.some.inj hc]
      exact hstart.caseChecks
    · exact h key c ((Table.get_insert_other hkey).symm.trans hc)

theorem Write.leasesFit {db db' : Db ρ σ} (h : LeasesFit db) (hw : Write db db') : LeasesFit db' := by
  intro key j hj
  rcases hw.job_cases key with he | ⟨caseKey, k, k', c, c', hjw, hk'⟩ | ⟨limits, input, hstart, hkey, hnew⟩
  · exact h key j (he ▸ hj)
  · obtain rfl := Option.some.inj (hj.symm.trans hk')
    exact hjw.step.leaseFits (h key k hjw.job)
  · obtain rfl := Option.some.inj (hj.symm.trans hnew)
    intro lease _ _ hl
    exact absurd (JobRow.leasedBy_iff.mp hl).2.1 (by simp [newJob])

theorem Write.budgetsKept {db db' : Db ρ σ} (h : BudgetsKept db) (hw : Write db db') : BudgetsKept db' := by
  intro key j hj
  rcases hw.job_cases key with he | ⟨caseKey, k, k', c, c', hjw, hk'⟩ | ⟨limits, input, hstart, hkey, hnew⟩
  · exact h key j (he ▸ hj)
  · obtain rfl := Option.some.inj (hj.symm.trans hk')
    exact hjw.step.progress.maxAttempts.trans (h key k hjw.job)
  · obtain rfl := Option.some.inj (hj.symm.trans hnew)
    rfl

theorem Write.rowsFit {db db' : Db ρ σ} (h : RowsFit db) (hw : Write db db') : RowsFit db' where
  jobs := hw.jobsChecked h.jobs
  cases := hw.casesChecked h.cases
  leases := hw.leasesFit h.leases
  budgets := hw.budgetsKept h.budgets
  ledger := hw.ledgerFits h.ledger

theorem World.step_rowsFit {w : World ρ σ} (action : Action ρ σ) (h : RowsFit w.db) :
    RowsFit (World.step action w).db := by
  cases action with
  | event event => exact run_write_invariant (fun _ _ hi hw => hw.rowsFit hi) [event] h
  | find query =>
    simp only [World.step]
    split <;> exact h

/-- The rows of a world fit whatever its clients did. -/
theorem world_rowsFit (now : Instant) (tenants : Table String TenantRow) (actions : List (Action ρ σ)) :
    RowsFit (Runs.run World.step actions (World.initial now tenants)).db := by
  have hrun : ∀ w : World ρ σ, RowsFit w.db → RowsFit (Runs.run World.step actions w).db := by
    induction actions with
    | nil => exact fun w h => h
    | cons action rest ih => exact fun w h => ih _ (World.step_rowsFit action h)
  exact hrun _ (initial_rowsFit now tenants)

end ReproForge
