import ReproForge.JobProgress

/-!
# Safety of leases and of cancellation

The guarantees of the lease protocol in every reachable state and along every
later run: attempts only grow and stay within their bound, a job is terminal at
most once, a superseded lease is refused for ever, and a committed cancellation
request is never undone.
-/
namespace ReproForge

open KeyedTable Fencing Transactions

variable {ρ σ : Type} [ResultDocument ρ] [RequestDocument σ] [Sha256]

/-- The lease value is the one in force. -/
def LeaseHeld (db : Db ρ σ) (lease : JobLease) : Prop :=
  ∃ j, db.jobs.get ⟨lease.tenantId, lease.jobId⟩ = some j ∧ j.leasedBy lease = true

/-- Whatever becomes of its attempts, the operation is refused and changes nothing. -/
def Refused {α : Type} (operation : Statement ρ σ α) (db : Db ρ σ) : Prop :=
  ∀ attempts, ∃ e, runSerializableTransaction 3 attempts operation db = (.error e, db)

omit [ResultDocument ρ] [RequestDocument σ] [Sha256] in
theorem refused_of_never_ok {α : Type} {operation : Statement ρ σ α} {db : Db ρ σ}
    (h : ∀ reply db', operation db ≠ (.ok reply, db')) : Refused operation db := by
  intro attempts
  rcases runSerializableTransaction_cases 3 attempts operation db with he | ⟨reply, db', hok, -⟩
  · exact he
  · exact absurd hok (h reply db')

/-! ## Superseded leases -/

def JobLease.rank (lease : JobLease) : ℕ ×ₗ WithTop Int := toLex (lease.attempt, (lease.expiresAt : WithTop Int))

/-- The job has moved past the attempt or the expiry of the lease. -/
def Superseded (db : Db ρ σ) (lease : JobLease) : Prop :=
  ∃ j, db.jobs.get ⟨lease.tenantId, lease.jobId⟩ = some j ∧ lease.rank < j.rank

omit [Sha256] in
theorem rank_of_current {j : JobRow} {lease : JobLease} (hs : j.state = .running)
    (ha : j.attempt = lease.attempt) (he : j.leaseExpiresAt = some lease.expiresAt) :
    j.rank = lease.rank := by
  rw [JobRow.rank, expiry_of_running hs he, ha]
  rfl

omit [Sha256] in
theorem rank_of_leasedBy {j : JobRow} {lease : JobLease} (h : j.leasedBy lease = true) :
    j.rank = lease.rank := by
  obtain ⟨hs, -, ha, -, he⟩ := JobRow.leasedBy_iff.mp h
  exact rank_of_current hs ha he

/-- A lease that was in force and no longer is has been superseded. -/
theorem superseded_of_lost {db : Db ρ σ} {lease : JobLease} {events : List (Event ρ σ)}
    (hheld : LeaseHeld db lease) (hlost : ¬ LeaseHeld (Runs.run step events db) lease) :
    Superseded (Runs.run step events db) lease := by
  obtain ⟨j, hj, hl⟩ := hheld
  obtain ⟨j', hj', hp⟩ := run_jobsProgress events db _ j hj
  refine ⟨j', hj', ?_⟩
  rw [← rank_of_leasedBy hl]
  refine hp.fenced.lt_of_changed ?_
  rintro ⟨hrank, hholder⟩
  apply hlost
  refine ⟨j', hj', ?_⟩
  obtain ⟨hs, ho, ha, hacq, he⟩ := JobRow.leasedBy_iff.mp hl
  rw [JobRow.rank, JobRow.rank, expiry_of_running hs he] at hrank
  have hattempt : j.attempt = j'.attempt := congrArg (fun r => (ofLex r).1) hrank
  have hexpiry : (lease.expiresAt : WithTop Int) = j'.expiry := congrArg (fun r => (ofLex r).2) hrank
  simp only [JobRow.holder, Prod.mk.injEq] at hholder
  unfold JobRow.expiry at hexpiry
  split at hexpiry
  · rename_i e hs' he'
    refine JobRow.leasedBy_iff.mpr ⟨hs', hholder.1 ▸ ho, hattempt ▸ ha, hholder.2 ▸ hacq, ?_⟩
    rw [he', WithTop.coe_injective hexpiry]
  · exact absurd hexpiry (WithTop.coe_ne_top)

theorem Superseded.run {db : Db ρ σ} {lease : JobLease} (h : Superseded db lease)
    (events : List (Event ρ σ)) : Superseded (Runs.run step events db) lease := by
  obtain ⟨j, hj, hlt⟩ := h
  obtain ⟨j', hj', hp⟩ := run_jobsProgress events db _ j hj
  exact ⟨j', hj', hlt.trans_le hp.fenced.le⟩

omit [ResultDocument ρ] [RequestDocument σ] [Sha256] in
theorem Superseded.no_current {db : Db ρ σ} {lease : JobLease} {j : JobRow} (h : Superseded db lease)
    (hj : db.jobs.get ⟨lease.tenantId, lease.jobId⟩ = some j) (hrank : j.rank = lease.rank) : False := by
  obtain ⟨k, hk, hlt⟩ := h
  have hjk := Option.some.inj (hj.symm.trans hk)
  subst hjk
  exact absurd hrank hlt.ne'

theorem Superseded.fail_refused {db : Db ρ σ} {lease : JobLease} (h : Superseded db lease)
    (failure : LeaseFailure) : Refused (failLease lease failure) db := by
  refine refused_of_never_ok ?_
  intro disposition db' hok
  cases failLease_ok hok with
  | cancelled hl _ hw => exact h.no_current hw.job (rank_of_leasedBy hl)
  | requeued hl hw => exact h.no_current hw.job (rank_of_leasedBy hl)
  | exhausted hl hw => exact h.no_current hw.job (rank_of_leasedBy hl)

theorem Superseded.release_refused {db : Db ρ σ} {lease : JobLease} (h : Superseded db lease)
    (input : ReleaseInput) : Refused (releaseLease lease input) db := by
  refine refused_of_never_ok ?_
  intro u db' hok
  obtain ⟨disposition, hfail⟩ := releaseLease_ok hok
  cases hfail with
  | cancelled hl _ hw => exact h.no_current hw.job (rank_of_leasedBy hl)
  | requeued hl hw => exact h.no_current hw.job (rank_of_leasedBy hl)
  | exhausted hl hw => exact h.no_current hw.job (rank_of_leasedBy hl)

theorem Superseded.complete_refused {db : Db ρ σ} {lease : JobLease} (h : Superseded db lease)
    (record : DurableReproductionRecord ρ σ) : Refused (completeLease lease record) db := by
  refine refused_of_never_ok ?_
  intro reply db' hok
  obtain ⟨-, j, c, hl, -, -, hw⟩ := completeLease_ok hok
  exact h.no_current hw.job (rank_of_leasedBy hl)

theorem Superseded.renew_refused {db : Db ρ σ} {lease : JobLease} (h : Superseded db lease)
    (input : RenewInput) : Refused (renewLease lease input) db := by
  refine refused_of_never_ok ?_
  intro reply db' hok
  obtain ⟨-, j, c, ⟨hs, ha, he⟩, hw⟩ := renewLease_ok hok
  exact h.no_current hw.job (rank_of_current hs ha he)

theorem Superseded.cancel_refused {db : Db ρ σ} {lease : JobLease} (h : Superseded db lease)
    (at' : Instant) : Refused (cancelLease lease at') db := by
  refine refused_of_never_ok ?_
  intro reply db' hok
  obtain ⟨j, c, cancelled, hl, -, hw⟩ := cancelLease_ok hok
  exact h.no_current hw.job (rank_of_leasedBy hl)

/-! ## Terminal states -/

def terminalAt (db : Db ρ σ) (key : Key) : Bool := (db.jobs.get key).any (fun j => j.state.terminal)

/-- How many events of a run take the job into a terminal state. -/
def terminalEntries (key : Key) : List (Event ρ σ) → Db ρ σ → Nat
  | [], _ => 0
  | event :: rest, db =>
    (if !terminalAt db key && terminalAt (step event db) key then 1 else 0) +
      terminalEntries key rest (step event db)

omit [ResultDocument ρ] [RequestDocument σ] [Sha256] in
theorem terminalAt_iff {db : Db ρ σ} {key : Key} :
    terminalAt db key = true ↔ ∃ j, db.jobs.get key = some j ∧ j.state.terminal = true := by
  unfold terminalAt
  cases db.jobs.get key <;> simp

theorem terminalAt_step {db : Db ρ σ} {key : Key} (h : terminalAt db key = true) (event : Event ρ σ) :
    terminalAt (step event db) key = true := by
  obtain ⟨j, hj, ht⟩ := terminalAt_iff.mp h
  obtain ⟨j', hj', hp⟩ := run_jobsProgress [event] db key j hj
  exact terminalAt_iff.mpr ⟨j', hj', hp.terminal ht ▸ ht⟩

theorem terminalEntries_of_terminal {db : Db ρ σ} {key : Key} (h : terminalAt db key = true)
    (events : List (Event ρ σ)) : terminalEntries key events db = 0 := by
  induction events generalizing db with
  | nil => rfl
  | cons event rest ih => simp [terminalEntries, h, ih (terminalAt_step h event)]

theorem terminalEntries_le_one (db : Db ρ σ) (key : Key) (events : List (Event ρ σ)) :
    terminalEntries key events db ≤ 1 := by
  induction events generalizing db with
  | nil => simp [terminalEntries]
  | cons event rest ih =>
    rw [terminalEntries]
    split
    · rename_i hentered
      simp only [Bool.and_eq_true] at hentered
      rw [terminalEntries_of_terminal hentered.2]
    · simpa using ih (step event db)

/-! ## The guarantees -/

/-- A state that a run from a database of tenants alone reaches. -/
def reached (now : Instant) (tenants : Table String TenantRow) (events : List (Event ρ σ)) : Db ρ σ :=
  Runs.run step events (Db.initial now tenants)

/-- What the lease protocol guarantees in a state and in all that follow it. -/
structure LeaseExclusion (db : Db ρ σ) : Prop where
  attempt_le : ∀ key j, db.jobs.get key = some j → j.attempt ≤ j.maxAttempts
  /-- A claim that commits raises the attempt by one and puts its lease in force. -/
  claim : ∀ input lease db', claimLease input db = (.ok (some lease), db') →
    ∃ j j', db.jobs.get ⟨input.tenantId, input.jobId⟩ = some j ∧
      db'.jobs.get ⟨input.tenantId, input.jobId⟩ = some j' ∧ j'.attempt = j.attempt + 1 ∧
      j'.attempt ≤ j'.maxAttempts ∧ j'.leasedBy lease = true
  /-- No event lowers an attempt or moves a job that is over. -/
  absorbing : ∀ events key j, db.jobs.get key = some j →
    ∃ j', (Runs.run step events db).jobs.get key = some j' ∧ j.attempt ≤ j'.attempt ∧
      j'.maxAttempts = j.maxAttempts ∧ (j.state.terminal = true → j' = j)
  terminal_once : ∀ key events, terminalEntries key events db ≤ 1
  /-- A lease that was in force and is not any more is refused at every later point. -/
  superseded : ∀ lease middle later, LeaseHeld db lease → ¬ LeaseHeld (Runs.run step middle db) lease →
    (∀ record, Refused (completeLease lease record) (Runs.run step later (Runs.run step middle db))) ∧
    (∀ failure, Refused (failLease lease failure) (Runs.run step later (Runs.run step middle db))) ∧
    (∀ input, Refused (releaseLease lease input) (Runs.run step later (Runs.run step middle db))) ∧
    (∀ input, Refused (renewLease lease input) (Runs.run step later (Runs.run step middle db))) ∧
    ∀ at', Refused (cancelLease lease at') (Runs.run step later (Runs.run step middle db))

omit [ResultDocument ρ] [RequestDocument σ] [Sha256] in
theorem attempt_le_of_checks {key : Key} {j : JobRow} (h : j.checks key = true) :
    j.attempt ≤ j.maxAttempts := by
  simp only [JobRow.checks, Bool.and_eq_true, decide_eq_true_eq] at h
  omega

theorem reached_jobsChecked (now : Instant) (tenants : Table String TenantRow) (events : List (Event ρ σ)) :
    JobsChecked (reached now tenants events) :=
  run_jobsChecked events (initial_jobsChecked now tenants)

theorem claimLease_leasedBy {input : ClaimInput} {lease : JobLease} {db db' : Db ρ σ}
    (h : claimLease input db = (.ok (some lease), db')) :
    ∃ j j', db.jobs.get ⟨input.tenantId, input.jobId⟩ = some j ∧
      db'.jobs.get ⟨input.tenantId, input.jobId⟩ = some j' ∧ j'.attempt = j.attempt + 1 ∧
      j'.checks ⟨input.tenantId, input.jobId⟩ = true ∧ j'.leasedBy lease = true := by
  rcases claimLease_ok h with ⟨he, -⟩ | ⟨j, c, he, hw⟩
  · cases he
  · obtain rfl := Option.some.inj he
    have hchecks := hw.jobAllowed
    simp only [jobUpdateAllowed, Bool.and_eq_true] at hchecks
    refine ⟨j, _, hw.job, ?_, rfl, hchecks.2, ?_⟩
    · exact hw.job_get
    · simp [JobRow.leasedBy, JobRow.claimed]

theorem lease_mutual_exclusion (now : Instant) (tenants : Table String TenantRow)
    (before : List (Event ρ σ)) : LeaseExclusion (reached now tenants before) where
  attempt_le key j hj := attempt_le_of_checks (reached_jobsChecked now tenants before key j hj)
  claim input lease db' h := by
    obtain ⟨j, j', hj, hj', ha, hc, hl⟩ := claimLease_leasedBy h
    exact ⟨j, j', hj, hj', ha, attempt_le_of_checks hc, hl⟩
  absorbing events key j hj := by
    obtain ⟨j', hj', hp⟩ := run_jobsProgress events _ key j hj
    exact ⟨j', hj', hp.attempt_le, hp.maxAttempts, hp.terminal⟩
  terminal_once key events := terminalEntries_le_one _ key events
  superseded lease middle later hheld hlost := by
    have hs := (superseded_of_lost hheld hlost).run later
    exact ⟨hs.complete_refused, hs.fail_refused, hs.release_refused, hs.renew_refused, hs.cancel_refused⟩

/-! ## Cancellation -/

/-- A committed cancellation request leaves the job flagged or cancelled. -/
theorem requestCancellation_cancelling {scope : TenantScope} {jobId : String} {at' : Instant}
    {reply : CancellationRequestResult} {db db' : Db ρ σ}
    (h : requestCancellation scope jobId at' db = (.ok (some reply), db')) :
    ∃ j, db'.jobs.get ⟨scope.tenantId, jobId⟩ = some j ∧ j.cancelling := by
  rcases requestCancellation_ok h with
    ⟨he, -⟩ | ⟨j, disposition, -, rfl, hj, hd⟩ | ⟨caseId, disposition, -, hw⟩
  · cases he
  · refine ⟨j, hj, ?_⟩
    rcases hd with ⟨-, hs⟩ | ⟨-, hs, hf⟩
    · exact .inr hs
    · exact .inl ⟨hs, hf⟩
  · cases hw with
    | requested hs hw => exact ⟨_, hw.job_get, .inl ⟨hs, rfl⟩⟩
    | cancelled _ hw => exact ⟨_, hw.job_get, .inr rfl⟩

theorem run_cancelling {db : Db ρ σ} {key : Key} {j : JobRow} (hj : db.jobs.get key = some j)
    (hc : j.cancelling) (events : List (Event ρ σ)) :
    ∃ j', (Runs.run step events db).jobs.get key = some j' ∧ j'.cancelling := by
  obtain ⟨j', hj', hp⟩ := run_jobsProgress events db key j hj
  exact ⟨j', hj', hp.cancelling hc⟩

omit [ResultDocument ρ] [RequestDocument σ] [Sha256] in
/-- A cancelling job is never queued, succeeded or failed. -/
theorem JobRow.cancelling.state {j : JobRow} (h : j.cancelling) :
    j.state ≠ .queued ∧ j.state ≠ .succeeded ∧ j.state ≠ .failed := by
  rcases h with ⟨hs, -⟩ | hs <;> simp [hs]

/-- Once a request has committed, every later state has the job flagged and
running or cancelled, and the next event can only cancel it. -/
theorem cancellation_wins (now : Instant) (tenants : Table String TenantRow) (before : List (Event ρ σ))
    (scope : TenantScope) (jobId : String) (at' : Instant) :
    ∀ reply db', requestCancellation scope jobId at' (reached now tenants before) = (.ok (some reply), db') →
      ∀ later, ∃ j, (Runs.run step later db').jobs.get ⟨scope.tenantId, jobId⟩ = some j ∧ j.cancelling ∧
        (j.state ≠ .queued ∧ j.state ≠ .succeeded ∧ j.state ≠ .failed) ∧
        ∀ event, ∃ j', (step event (Runs.run step later db')).jobs.get ⟨scope.tenantId, jobId⟩ = some j' ∧
          (j'.state = j.state ∨
            j.state = .running ∧ j.cancellationRequestedAt.isSome = true ∧ j'.state = .cancelled) := by
  intro reply db' h later
  obtain ⟨j₀, hj₀, hc₀⟩ := requestCancellation_cancelling h
  obtain ⟨j, hj, hc⟩ := run_cancelling hj₀ hc₀ later
  refine ⟨j, hj, hc, hc.state, ?_⟩
  intro event
  obtain ⟨j', hj', hp⟩ := run_jobsProgress [event] _ _ j hj
  refine ⟨j', hj', ?_⟩
  rcases hc with ⟨hs, hf⟩ | hs
  · rcases hp.cancelling (.inl ⟨hs, hf⟩) with ⟨hs', -⟩ | hs'
    · exact .inl (hs'.trans hs.symm)
    · exact .inr ⟨hs, hf, hs'⟩
  · have hsame : j' = j := hp.terminal (by simp [hs, JobState.terminal])
    exact .inl (by rw [hsame])

end ReproForge

namespace ReproForge

open Sample

/-- A queued job is cancelled at once and stays so past a claim and a recovery. -/
theorem cancellation_wins_sample :
    ∃ db', requestCancellation ⟨"caller", "caller", "acme"⟩ "job-1" (opening + 1000)
        (reached opening tenants [first]) = (.ok (some ⟨"case-1", true, .cancelled⟩), db') ∧
      ∃ j, (Runs.run step [.call [] (.claimLease ⟨opening + 2000, "job-1", 60, "worker", "acme"⟩),
        .call [] (.recoverExpiredLeases ⟨opening + 90000, 10⟩ [])] db').jobs.get ⟨"acme", "job-1"⟩ = some j ∧
        j.state ≠ .queued := by
  have hreply : requestCancellation ⟨"caller", "caller", "acme"⟩ "job-1" (opening + 1000)
      (reached opening tenants [first]) = (.ok (some ⟨"case-1", true, .cancelled⟩), _) :=
    Transactions.Tx.ok_of_reply (by decide +kernel)
  obtain ⟨j, hj, -, hstate, -⟩ := cancellation_wins opening tenants [first]
    ⟨"caller", "caller", "acme"⟩ "job-1" (opening + 1000) _ _ hreply
    [.call [] (.claimLease ⟨opening + 2000, "job-1", 60, "worker", "acme"⟩),
      .call [] (.recoverExpiredLeases ⟨opening + 90000, 10⟩ [])]
  exact ⟨_, hreply, j, hj, hstate.1⟩

end ReproForge
