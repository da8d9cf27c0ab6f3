import Mathlib.Tactic
import ReproForge.Fencing
import ReproForge.System

/-!
# Progress of a job

What the writes of the system can do to one job over time. The lease columns of
a job are fenced: the rank made of its attempt and of the expiry of its lease
rises whenever the lease changes hands. Terminal states are never left, and a
recorded cancellation request is never dropped.
-/
namespace ReproForge

open KeyedTable Fencing

variable {ρ σ : Type}

/-- The expiry of the lease in force, above every instant when there is none. -/
def JobRow.expiry (j : JobRow) : WithTop Int :=
  match j.state, j.leaseExpiresAt with
  | .running, some expiresAt => (expiresAt : WithTop Int)
  | _, _ => ⊤

def JobRow.rank (j : JobRow) : ℕ ×ₗ WithTop Int := toLex (j.attempt, j.expiry)

def JobRow.holder (j : JobRow) : Option String × Option Instant := (j.leaseOwner, j.leaseAcquiredAt)

/-- A cancellation request is recorded, or the job is cancelled already. -/
def JobRow.cancelling (j : JobRow) : Prop :=
  (j.state = .running ∧ j.cancellationRequestedAt.isSome = true) ∨ j.state = .cancelled

structure JobProgress (j j' : JobRow) : Prop where
  fenced : Fenced JobRow.rank JobRow.holder j j'
  maxAttempts : j'.maxAttempts = j.maxAttempts
  caseId : j'.caseId = j.caseId
  terminal : j.state.terminal = true → j' = j
  cancelling : j.cancelling → j'.cancelling

theorem JobProgress.refl (j : JobRow) : JobProgress j j :=
  ⟨.refl j, rfl, rfl, fun _ => rfl, id⟩

theorem JobProgress.trans {j k l : JobRow} (hjk : JobProgress j k) (hkl : JobProgress k l) :
    JobProgress j l where
  fenced := hjk.fenced.trans hkl.fenced
  maxAttempts := hkl.maxAttempts.trans hjk.maxAttempts
  caseId := hkl.caseId.trans hjk.caseId
  terminal := by
    intro ht
    have hk := hjk.terminal ht
    subst hk
    exact hkl.terminal ht
  cancelling := fun h => hkl.cancelling (hjk.cancelling h)

theorem JobProgress.attempt_le {j j' : JobRow} (h : JobProgress j j') : j.attempt ≤ j'.attempt := by
  have hle := h.fenced.le
  rw [JobRow.rank, JobRow.rank, Prod.Lex.le_iff] at hle
  rcases hle with hlt | ⟨he, -⟩
  · exact hlt.le
  · exact he.le

theorem rank_lt_of_attempt {j j' : JobRow} (h : j.attempt < j'.attempt) : j.rank < j'.rank := by
  rw [JobRow.rank, JobRow.rank, Prod.Lex.lt_iff]
  exact .inl h

theorem rank_lt_of_expiry {j j' : JobRow} (ha : j'.attempt = j.attempt) (h : j.expiry < j'.expiry) :
    j.rank < j'.rank := by
  rw [JobRow.rank, JobRow.rank, Prod.Lex.lt_iff]
  exact .inr ⟨ha.symm, h⟩

theorem expiry_of_running {j : JobRow} {e : Instant} (hs : j.state = .running)
    (he : j.leaseExpiresAt = some e) : j.expiry = (e : WithTop Int) := by
  simp [JobRow.expiry, hs, he]

theorem expiry_of_not_running {j : JobRow} (hs : j.state ≠ .running) : j.expiry = ⊤ := by
  unfold JobRow.expiry
  split
  · rename_i h _
    exact absurd h hs
  · rfl

/-- A step that ends a lease within its attempt raises the rank. -/
theorem rank_lt_of_lease_end {j j' : JobRow} {e : Instant} (hs : j.state = .running)
    (he : j.leaseExpiresAt = some e) (ha : j'.attempt = j.attempt) (hs' : j'.state ≠ .running) :
    j.rank < j'.rank := by
  refine rank_lt_of_expiry ha ?_
  rw [expiry_of_running hs he, expiry_of_not_running hs']
  exact WithTop.coe_lt_top e

variable [ResultDocument ρ] [RequestDocument σ]

/-- The one place where the steps on a job are taken apart for their progress. -/
theorem JobStep.progress {db : Db ρ σ} {key caseKey : Key} {j j' : JobRow} {c c' : CaseRow ρ σ}
    (h : JobStep db key caseKey j c j' c') : JobProgress j j' := by
  cases h with
  | claim ownerId acquiredAt expiresAt _ _ hclaim _ =>
    refine ⟨.inl (rank_lt_of_attempt (Nat.lt_succ_self _)), rfl, rfl, ?_, ?_⟩
    · intro ht
      simp only [JobRow.claimable, Bool.and_eq_true, Bool.or_eq_true, beq_iff_eq] at hclaim
      rcases hclaim.2 with ⟨hs, -⟩ | ⟨hs, -⟩ <;> simp [hs, JobState.terminal] at ht
    · rintro (⟨-, hf⟩ | hs)
      · exact .inl ⟨rfl, hf⟩
      · simp [JobRow.claimable, hs] at hclaim
  | renew lease at' expiresAt _ _ hs _ _ he _ _ hlater _ _ =>
    refine ⟨.inl (rank_lt_of_expiry rfl ?_), rfl, rfl, ?_, ?_⟩
    · rw [expiry_of_running hs he, expiry_of_running (j := j.renewed expiresAt at') hs rfl]
      exact WithTop.coe_lt_coe.mpr hlater
    · simp [hs, JobState.terminal]
    · rintro (⟨-, hf⟩ | hc)
      · exact .inl ⟨hs, hf⟩
      · simp [hs] at hc
  | complete lease record _ _ _ _ _ _ _ hl _ hflag hterminal _ =>
    obtain ⟨hs, -, -, -, he⟩ := JobRow.leasedBy_iff.mp hl
    refine ⟨.inl (rank_lt_of_lease_end hs he rfl ?_), rfl, rfl, ?_, ?_⟩
    · rcases hterminal with ht | ht <;> simp [JobRow.completed, ht]
    · simp [hs, JobState.terminal]
    · rintro (⟨-, hf⟩ | hc)
      · simp [hflag] at hf
      · simp [hs] at hc
  | requeue lease nextAttemptAt at' _ _ hl hflag _ _ _ _ _ =>
    obtain ⟨hs, -, -, -, he⟩ := JobRow.leasedBy_iff.mp hl
    refine ⟨.inl (rank_lt_of_lease_end hs he rfl (by simp [JobRow.failed])), rfl, rfl, ?_, ?_⟩
    · simp [hs, JobState.terminal]
    · rintro (⟨-, hf⟩ | hc)
      · simp [hflag] at hf
      · simp [hs] at hc
  | exhaust lease failure nextAttemptAt at' _ _ hl hflag _ _ _ _ =>
    obtain ⟨hs, -, -, -, he⟩ := JobRow.leasedBy_iff.mp hl
    refine ⟨.inl (rank_lt_of_lease_end hs he rfl (by simp [JobRow.failed])), rfl, rfl, ?_, ?_⟩
    · simp [hs, JobState.terminal]
    · rintro (⟨-, hf⟩ | hc)
      · simp [hflag] at hf
      · simp [hs] at hc
  | request at' _ hs _ _ =>
    refine ⟨.inr ⟨rfl, rfl⟩, rfl, rfl, ?_, ?_⟩
    · simp [hs, JobState.terminal]
    · exact fun _ => .inl ⟨hs, rfl⟩
  | cancelQueued row record cancelled at' _ hs _ _ _ _ _ _ _ =>
    refine ⟨.inr ⟨?_, rfl⟩, rfl, rfl, ?_, fun _ => .inr rfl⟩
    · have hnot : j.state ≠ .running := by simp [hs]
      rw [JobRow.rank, JobRow.rank, expiry_of_not_running hnot, expiry_of_not_running (by simp [JobRow.cancelledQueued])]
      rfl
    · simp [hs, JobState.terminal]
  | cancelRunning lease row record cancelled at' _ _ hl _ _ _ _ _ _ _ _ _ =>
    obtain ⟨hs, -, -, -, he⟩ := JobRow.leasedBy_iff.mp hl
    refine ⟨.inl (rank_lt_of_lease_end hs he rfl (by simp [JobRow.cancelledRunning])), rfl, rfl, ?_,
      fun _ => .inr rfl⟩
    simp [hs, JobState.terminal]
  | save record _ _ _ _ _ hqueued hs _ hattempt _ =>
    refine ⟨.inr ⟨?_, rfl⟩, rfl, rfl, ?_, ?_⟩
    · have hnot : j.state ≠ .running := by simp [hs]
      have hnot' : (j.saved record).state ≠ .running := by simp [JobRow.saved, hqueued]
      rw [JobRow.rank, JobRow.rank, expiry_of_not_running hnot, expiry_of_not_running hnot']
      simp [JobRow.saved, hattempt]
    · simp [hs, JobState.terminal]
    · rintro (⟨hr, -⟩ | hc)
      · simp [hs] at hr
      · simp [hs] at hc

/-! ## One job across writes and runs -/

variable [Sha256]

/-- What a write does to the row under a key: nothing, one job step, or an insertion. -/
theorem Write.job_cases {db db' : Db ρ σ} (h : Write db db') (key : Key) :
    db'.jobs.get key = db.jobs.get key ∨
    (∃ caseKey j j' c c', JobWrite db db' key caseKey j j' c c' ∧ db'.jobs.get key = some j') ∨
    ∃ limits input, StartWrite limits input db db' ∧ key = recordJobKey input.record ∧
      db'.jobs.get key = some (newJob input.record db.now) := by
  cases h with
  | change hc =>
    cases hc with
    | @job key' caseKey j j' c c' hw _ =>
      by_cases hk : key = key'
      · subst hk
        exact .inr (.inl ⟨caseKey, j, j', c, c', hw, hw.job_get⟩)
      · exact .inl (hw.job_get_other hk)
    | audit key' row hd => exact .inl (by rw [hd])
    | outbox hw _ => exact .inl (by rw [hw.result])
    | environment now tenants artifacts deletions hd _ => exact .inl (by rw [hd])
  | start hw =>
    rename_i limits input
    by_cases hk : key = recordJobKey input.record
    · subst hk
      refine .inr (.inr ⟨limits, input, hw, rfl, ?_⟩)
      rw [hw.result]
      exact Table.get_insert_self hw.job
    · left
      rw [hw.result]
      exact Table.get_insert_other hk

/-- Jobs stay, and make progress. -/
def JobsProgress (db db' : Db ρ σ) : Prop :=
  ∀ key j, db.jobs.get key = some j → ∃ j', db'.jobs.get key = some j' ∧ JobProgress j j'

theorem Write.jobsProgress {db db' : Db ρ σ} (h : Write db db') : JobsProgress db db' := by
  intro key j hj
  rcases h.job_cases key with he | ⟨caseKey, k, k', c, c', hw, hk'⟩ | ⟨limits, input, hw, hkey, -⟩
  · exact ⟨j, he.trans hj, .refl j⟩
  · have hjk : j = k := Option.some.inj (hj.symm.trans hw.job)
    subst hjk
    exact ⟨k', hk', hw.step.progress⟩
  · rw [hkey, hw.job] at hj
    cases hj

theorem run_jobsProgress (events : List (Event ρ σ)) (db : Db ρ σ) :
    JobsProgress db (Runs.run step events db) := by
  refine run_write_relates ?_ ?_ (fun _ _ hw => hw.jobsProgress) events db
  · exact fun db key j hj => ⟨j, hj, .refl j⟩
  · intro s t u hst htu key j hj
    obtain ⟨k, hk, hjk⟩ := hst key j hj
    obtain ⟨l, hl, hkl⟩ := htu key k hk
    exact ⟨l, hl, hjk.trans hkl⟩

/-! ## Rows satisfy their constraints -/

/-- Every job row passes its CHECK constraints. -/
def JobsChecked (db : Db ρ σ) : Prop := ∀ key j, db.jobs.get key = some j → j.checks key = true

theorem Write.jobsChecked {db db' : Db ρ σ} (h : JobsChecked db) (hw : Write db db') : JobsChecked db' := by
  intro key j hj
  rcases hw.job_cases key with he | ⟨caseKey, k, k', c, c', hjw, hk'⟩ | ⟨limits, input, hsw, hkey, hnew⟩
  · exact h key j (he ▸ hj)
  · have hjk : j = k' := Option.some.inj (hj.symm.trans hk')
    subst hjk
    have ha := hjw.jobAllowed
    simp only [jobUpdateAllowed, Bool.and_eq_true] at ha
    exact ha.2
  · have hjn := Option.some.inj (hj.symm.trans hnew)
    subst hjn
    rw [hkey]
    exact hsw.jobChecks

theorem run_jobsChecked (events : List (Event ρ σ)) {db : Db ρ σ} (h : JobsChecked db) :
    JobsChecked (Runs.run step events db) :=
  run_write_invariant (fun _ _ hi hw => hw.jobsChecked hi) events h

omit [ResultDocument ρ] [RequestDocument σ] [Sha256] in
theorem initial_jobsChecked (now : Instant) (tenants : Table String TenantRow) :
    JobsChecked (Db.initial now tenants : Db ρ σ) := by
  intro key j hj
  cases hj

end ReproForge
