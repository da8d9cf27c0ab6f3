import ReproForge.ActiveJobs

/-!
# Release of reservations

A reservation is released in the transaction that ends its job, and by nothing
else. Beside that only the expiry pass of a start changes a reservation, and no
reservation that has left RESERVED comes back to it.
-/
namespace ReproForge

open KeyedTable Relation

variable {ρ σ : Type}

/-- The ledger row was reserved for the job, under any resource. -/
def ReservedFor (key qkey : Key) (q : QuotaRow) : Prop := qkey.tenantId = key.tenantId ∧ q.jobId = some key.id

/-- The row of a job that ends with the change: it is reserved before and released after it. -/
structure ReleasedWith (db db' : Db ρ σ) (key qkey : Key) (q : QuotaRow) : Prop where
  reserves : Reserves key qkey q
  reserved : q.state = .reserved
  before : ∃ j, db.jobs.get key = some j ∧ j.state.terminal = false
  after : ∃ j', db'.jobs.get key = some j' ∧ j'.state.terminal = true
  row : ∃ at', db'.quotaLedger.get qkey = some (q.released at')

/-- A row stays as it is, unless its own job ends. -/
def LedgerKept (db db' : Db ρ σ) : Prop :=
  ∀ qkey q, db.quotaLedger.get qkey = some q →
    db'.quotaLedger.get qkey = some q ∨ ∃ key, ReleasedWith db db' key qkey q

theorem not_active_of_left {tenantId jobId : String} {qkey : Key} {q : QuotaRow} (h : q.state ≠ .reserved) :
    activeJobReservation tenantId jobId qkey q = false := by
  simp [activeJobReservation, h]

theorem not_expirable_of_left {tenantId : String} {resource : QuotaResource} {now : Instant} {qkey : Key}
    {q : QuotaRow} (h : q.state ≠ .reserved) : expirable tenantId resource now qkey q = false := by
  simp [expirable, h]

theorem activeJobReservation_iff {key qkey : Key} {q : QuotaRow} :
    activeJobReservation key.tenantId key.id qkey q = true ↔ Reserves key qkey q ∧ q.state = .reserved := by
  simp only [activeJobReservation, Reserves, Bool.and_eq_true, beq_iff_eq]
  tauto

variable [ResultDocument ρ] [RequestDocument σ] [Sha256] {event : Event ρ σ} {db db' : Db ρ σ}

/-! ## Changes -/

/-- No operation moves a job that is over. -/
theorem JobWrite.open {key caseKey : Key} {j j' : JobRow} {c c' : CaseRow ρ σ}
    (h : JobWrite db db' key caseKey j j' c c') : j.state.terminal = false := by
  by_contra hover
  have hsame : j' = j := h.step.progress.terminal (by simpa using hover)
  have hallowed := h.jobAllowed
  simp only [jobUpdateAllowed, successorVersion, Bool.and_eq_true, beq_iff_eq] at hallowed
  have hversion : j'.version = j.version + 1 := hallowed.1.1.1.1
  rw [hsame] at hversion
  omega

theorem JobWrite.ledgerKept {key caseKey : Key} {j j' : JobRow} {c c' : CaseRow ρ σ}
    (h : JobWrite db db' key caseKey j j' c c') : LedgerKept db db' := by
  intro qkey q hq
  have hledger : db'.quotaLedger =
      if j'.state.terminal then releasedQuotas key.tenantId key.id j'.updatedAt db.quotaLedger
      else db.quotaLedger := by rw [h.result]
  cases hterminal : j'.state.terminal with
  | false =>
    left
    simpa [hledger, hterminal] using hq
  | true =>
    rw [hterminal, if_pos rfl] at hledger
    by_cases hmatch : activeJobReservation key.tenantId key.id qkey q = true
    · obtain ⟨hreserves, hreserved⟩ := activeJobReservation_iff.mp hmatch
      refine .inr ⟨key, hreserves, hreserved, ⟨j, h.job, h.open⟩, ⟨j', h.job_get, hterminal⟩, j'.updatedAt, ?_⟩
      rw [hledger]
      simp [releasedQuotas, hq, hmatch]
    · left
      rw [hledger]
      simp [releasedQuotas, hq, hmatch]

theorem Change.ledgerKept (h : Change event db db') : LedgerKept db db' := by
  cases h with
  | job hw _ => exact hw.ledgerKept
  | audit key row hd => exact fun qkey q hq => .inl (by rw [hd]; exact hq)
  | outbox hw _ => exact fun qkey q hq => .inl (by rw [hw.result]; exact hq)
  | environment now tenants artifacts deletions hd _ => exact fun qkey q hq => .inl (by rw [hd]; exact hq)

theorem Change.jobsProgress (h : Change event db db') : JobsProgress db db' := (Write.change h).jobsProgress

theorem changes_jobsProgress (h : ReflTransGen (Change event) db db') : JobsProgress db db' := by
  induction h with
  | refl => exact fun key j hj => ⟨j, hj, .refl j⟩
  | tail _ hc ih =>
    intro key j hj
    obtain ⟨k, hk, hjk⟩ := ih key j hj
    obtain ⟨l, hl, hkl⟩ := hc.jobsProgress key k hk
    exact ⟨l, hl, hjk.trans hkl⟩

theorem changes_job_back (h : ReflTransGen (Change event) db db') {key : Key} {j' : JobRow}
    (hj' : db'.jobs.get key = some j') : ∃ j, db.jobs.get key = some j ∧ JobProgress j j' := by
  induction h generalizing j' with
  | refl => exact ⟨j', hj', .refl j'⟩
  | tail _ hc ih =>
    obtain ⟨k, hk, hkj⟩ := hc.job_back hj'
    obtain ⟨j, hj, hjk⟩ := ih hk
    exact ⟨j, hj, hjk.trans hkj⟩

theorem changes_ledgerKept (h : ReflTransGen (Change event) db db') : LedgerKept db db' := by
  induction h with
  | refl => exact fun _ _ hq => .inl hq
  | @tail t u hbefore hc ih =>
    intro qkey q hq
    rcases ih qkey q hq with hkept | ⟨key, hr⟩
    · rcases hc.ledgerKept qkey q hkept with hstill | ⟨key, hr⟩
      · exact .inl hstill
      · -- the job was open before the first change as well
        obtain ⟨k, hk, hopen⟩ := hr.before
        obtain ⟨j, hj, hp⟩ := changes_job_back hbefore hk
        refine .inr ⟨key, hr.reserves, hr.reserved, ⟨j, hj, ?_⟩, hr.after, hr.row⟩
        by_contra hover
        rw [hp.terminal (by simpa using hover)] at hopen
        simp_all
    · -- a released row and an ended job stay as they are
      obtain ⟨at', hrow⟩ := hr.row
      obtain ⟨k, hk, hterminal⟩ := hr.after
      obtain ⟨l, hl, hp⟩ := hc.jobsProgress key k hk
      refine .inr ⟨key, hr.reserves, hr.reserved, hr.before, ⟨l, hl, hp.terminal hterminal ▸ hterminal⟩, at', ?_⟩
      rcases hc.ledgerKept qkey _ hrow with hstill | ⟨_, hagain⟩
      · exact hstill
      · cases hagain.reserved

/-! ## Starts -/

omit [Sha256] in
theorem StartWrite.ledger_some {limits : QuotaLimits} {input : DurableStartInput ρ σ}
    (h : StartWrite limits input db db') {qkey : Key} {q : QuotaRow} (hq : db.quotaLedger.get qkey = some q) :
    db'.quotaLedger.get qkey = some q ∨ q.state = .reserved ∧ db'.quotaLedger.get qkey = some (q.expired db.now) := by
  have hne : qkey ≠ reservationKey input.quotaReservation := by
    rintro rfl
    rw [h.reservation] at hq
    cases hq
  have hget : db'.quotaLedger.get qkey = (expiredLedger db input.quotaReservation).get qkey := by
    rw [h.result]
    exact Table.get_insert_other hne
  rw [hget, expiredLedger, Table.get_update, hq, Option.map_some]
  split
  · rename_i hexpirable
    simp only [expirable, Bool.and_eq_true, beq_iff_eq] at hexpirable
    exact .inr ⟨hexpirable.1.2, rfl⟩
  · exact .inl rfl

omit [Sha256] in
/-- A ledger row after a start is the new reservation, or was there and may be expired now. -/
theorem StartWrite.ledger_back {limits : QuotaLimits} {input : DurableStartInput ρ σ}
    (h : StartWrite limits input db db') {qkey : Key} {q' : QuotaRow}
    (hq' : db'.quotaLedger.get qkey = some q') (hstate : q'.state = .reserved) :
    (qkey = reservationKey input.quotaReservation ∧ q' = newReservation input.quotaReservation
      input.record.snapshot.job.createdAt db.now) ∨ db.quotaLedger.get qkey = some q' := by
  have hfresh : (expiredLedger db input.quotaReservation).get (reservationKey input.quotaReservation) = none := by
    simp [expiredLedger, h.reservation]
  have hget : db'.quotaLedger = (expiredLedger db input.quotaReservation).insert
      (reservationKey input.quotaReservation)
      (newReservation input.quotaReservation input.record.snapshot.job.createdAt db.now) := by
    rw [h.result]
  rw [hget] at hq'
  rcases Table.get_insert_cases hfresh hq' with hnew | hold
  · exact .inl hnew
  · right
    rw [expiredLedger, Table.get_update] at hold
    obtain ⟨q, hq, he⟩ := Option.map_eq_some_iff.mp hold
    split at he
    · rw [← he] at hstate
      cases hstate
    · exact he ▸ hq

/-! ## The reservations of jobs that are over -/

/-- No active-jobs reservation of a job that is over is still reserved. -/
def Released (db : Db ρ σ) : Prop :=
  ∀ key j qkey q, db.jobs.get key = some j → j.state.terminal = true → db.quotaLedger.get qkey = some q →
    Reserves key qkey q → q.state ≠ .reserved

theorem Change.released (h : Change event db db') (hinv : Released db) : Released db' := by
  intro key j' qkey q' hj' hterminal hq' hreserves hreserved
  cases h with
  | @job key' caseKey j k' c c' hw _ =>
    have hledger : db'.quotaLedger =
        if k'.state.terminal then releasedQuotas key'.tenantId key'.id k'.updatedAt db.quotaLedger
        else db.quotaLedger := by rw [hw.result]
    have hq : db.quotaLedger.get qkey = some q' ∧
        (k'.state.terminal = true → activeJobReservation key'.tenantId key'.id qkey q' = false) := by
      rw [hledger] at hq'
      split at hq'
      · rw [releasedQuotas, Table.get_update] at hq'
        obtain ⟨q, hq, he⟩ := Option.map_eq_some_iff.mp hq'
        split at he
        · rw [← he] at hreserved
          cases hreserved
        · rename_i hnot
          exact he ▸ ⟨hq, fun _ => by simpa using hnot⟩
      · rename_i hopen
        exact ⟨hq', fun ht => absurd ht hopen⟩
    by_cases hk : key = key'
    · subst hk
      obtain rfl := Option.some.inj (hj'.symm.trans hw.job_get)
      have hmatch := activeJobReservation_iff.mpr ⟨hreserves, hreserved⟩
      rw [hq.2 hterminal] at hmatch
      cases hmatch
    · have hj : db.jobs.get key = some j' := (hw.job_get_other hk) ▸ hj'
      exact hinv key j' qkey q' hj hterminal hq.1 hreserves hreserved
  | audit key' row hd =>
    rw [hd] at hj' hq'
    exact hinv key j' qkey q' hj' hterminal hq' hreserves hreserved
  | outbox hw _ =>
    rw [hw.result] at hj' hq'
    exact hinv key j' qkey q' hj' hterminal hq' hreserves hreserved
  | environment now tenants artifacts deletions hd _ =>
    rw [hd] at hj' hq'
    exact hinv key j' qkey q' hj' hterminal hq' hreserves hreserved

theorem StartWrite.released {limits : QuotaLimits} {lifetime : Int} {input : DurableStartInput ρ σ}
    (h : StartWrite limits input db db') (hservice : ServiceStart lifetime input) (hinv : Released db) :
    Released db' := by
  obtain ⟨command, hcommand⟩ := hservice
  obtain ⟨-, -, -, -, hjob, htenant, hqueued, -⟩ := startInput_some hcommand
  intro key j qkey q hj hterminal hq hreserves hreserved
  have hjobs : db'.jobs = db.jobs.insert (recordJobKey input.record) (newJob input.record db.now) := by
    rw [h.result]
  rw [hjobs] at hj
  rcases Table.get_insert_cases h.job hj with ⟨-, rfl⟩ | hold
  · -- the new job is queued
    simp [newJob, hqueued, JobState.terminal] at hterminal
  · rcases h.ledger_back hq hreserved with ⟨hkey, hnew⟩ | hq
    · -- the new reservation is the new job's, which was not there before
      have hown : key = recordJobKey input.record := by
        obtain ⟨hqtenant, hqjob, -⟩ := hreserves
        rw [hkey, reservationKey, htenant] at hqtenant
        rw [hnew, newReservation, hjob] at hqjob
        cases key
        simp_all [recordJobKey]
      rw [hown, h.job] at hold
      cases hold
    · exact hinv key j qkey q hold hterminal hq hreserves hreserved

/-! ## Leaving RESERVED -/

def reservedAt (db : Db ρ σ) (qkey : Key) : Bool :=
  (db.quotaLedger.get qkey).any (fun q => q.state == .reserved)

/-- How many events of a run take the reservation out of RESERVED. -/
def departures (qkey : Key) : List (Event ρ σ) → Db ρ σ → Nat
  | [], _ => 0
  | event :: rest, db =>
    (if reservedAt db qkey && !reservedAt (step event db) qkey then 1 else 0) +
      departures qkey rest (step event db)

/-- A row that has left RESERVED stays as it is. -/
theorem Write.left {qkey : Key} {q : QuotaRow} (h : Write db db') (hq : db.quotaLedger.get qkey = some q)
    (hleft : q.state ≠ .reserved) : db'.quotaLedger.get qkey = some q := by
  cases h with
  | change hc =>
    rcases hc.ledgerKept qkey q hq with hkept | ⟨key, hr⟩
    · exact hkept
    · exact absurd hr.reserved hleft
  | start hw =>
    rcases hw.ledger_some hq with hkept | ⟨hreserved, -⟩
    · exact hkept
    · exact absurd hreserved hleft

/-- No write removes a row of the ledger. -/
theorem Write.ledger_isSome {qkey : Key} {q : QuotaRow} (h : Write db db')
    (hq : db.quotaLedger.get qkey = some q) : ∃ q', db'.quotaLedger.get qkey = some q' := by
  cases h with
  | change hc =>
    rcases hc.ledgerKept qkey q hq with hkept | ⟨key, hr⟩
    · exact ⟨q, hkept⟩
    · obtain ⟨at', hrow⟩ := hr.row
      exact ⟨_, hrow⟩
  | start hw =>
    rcases hw.ledger_some hq with hkept | ⟨-, hexpired⟩
    · exact ⟨q, hkept⟩
    · exact ⟨_, hexpired⟩

theorem step_left {qkey : Key} {q : QuotaRow} (hq : db.quotaLedger.get qkey = some q)
    (hleft : q.state ≠ .reserved) (event : Event ρ σ) : (step event db).quotaLedger.get qkey = some q := by
  have hwrites := step_writes event db
  generalize step event db = db' at hwrites ⊢
  induction hwrites with
  | refl => exact hq
  | tail _ hw ih => exact hw.left ih hleft

theorem step_ledger_isSome {qkey : Key} {q : QuotaRow} (hq : db.quotaLedger.get qkey = some q)
    (event : Event ρ σ) : ∃ q', (step event db).quotaLedger.get qkey = some q' := by
  have hwrites := step_writes event db
  generalize step event db = db' at hwrites ⊢
  induction hwrites with
  | refl => exact ⟨q, hq⟩
  | tail _ hw ih =>
    obtain ⟨q', hq'⟩ := ih
    exact hw.ledger_isSome hq'

omit [ResultDocument ρ] [RequestDocument σ] [Sha256] in
theorem reservedAt_some {qkey : Key} {q : QuotaRow} (hq : db.quotaLedger.get qkey = some q) :
    reservedAt db qkey = true ↔ q.state = .reserved := by
  simp [reservedAt, hq]

theorem departures_of_left {qkey : Key} {q : QuotaRow} (hq : db.quotaLedger.get qkey = some q)
    (hleft : q.state ≠ .reserved) (events : List (Event ρ σ)) : departures qkey events db = 0 := by
  induction events generalizing db with
  | nil => rfl
  | cons event rest ih =>
    have hnot : reservedAt db qkey = false := by
      rw [← Bool.not_eq_true, reservedAt_some hq]
      exact hleft
    simp [departures, hnot, ih (step_left hq hleft event)]

theorem departures_le_one (db : Db ρ σ) (qkey : Key) (events : List (Event ρ σ)) :
    departures qkey events db ≤ 1 := by
  induction events generalizing db with
  | nil => simp [departures]
  | cons event rest ih =>
    rw [departures]
    split
    · rename_i hleaves
      simp only [Bool.and_eq_true, Bool.not_eq_true'] at hleaves
      have hsome : (db.quotaLedger.get qkey).isSome = true := by
        by_contra hnone
        simp [reservedAt, Option.not_isSome_iff_eq_none.mp hnone] at hleaves
      obtain ⟨q, hq⟩ := Option.isSome_iff_exists.mp hsome
      obtain ⟨q', hq'⟩ := step_ledger_isSome hq event
      have hleft : q'.state ≠ .reserved := by
        intro hreserved
        rw [(reservedAt_some hq').mpr hreserved] at hleaves
        cases hleaves.2
      rw [departures_of_left hq' hleft]
    · simpa using ih (step event db)

/-! ## The guarantees -/

/-- What the ledger guarantees in a state and in the events that follow it. -/
structure QuotaDiscipline (db : Db ρ σ) : Prop where
  released : Released db
  /-- A requeue leaves every reservation of its job as it is. -/
  requeued : ∀ event key j j', db.jobs.get key = some j → j.state = .running →
    (step event db).jobs.get key = some j' → j'.state = .queued →
    ∀ qkey q, db.quotaLedger.get qkey = some q → ReservedFor key qkey q →
      (step event db).quotaLedger.get qkey = some q
  once : ∀ qkey events, departures qkey events db ≤ 1
  /-- An event that is no start changes the reservations of the jobs that it ends and no other. -/
  own : ∀ event : Event ρ σ, event.isStart = false → LedgerKept db (step event db)
  /-- A start releases nothing; what it changes has expired. -/
  expiry : ∀ event qkey q, event.isStart = true → db.quotaLedger.get qkey = some q →
    (step event db).quotaLedger.get qkey = some q ∨
      q.state = .reserved ∧ (step event db).quotaLedger.get qkey = some (q.expired db.now)

theorem step_expiry {qkey : Key} {q : QuotaRow} (hevent : event.isStart = true)
    (hq : db.quotaLedger.get qkey = some q) : (step event db).quotaLedger.get qkey = some q ∨
      q.state = .reserved ∧ (step event db).quotaLedger.get qkey = some (q.expired db.now) := by
  cases event with
  | call attempts op =>
    cases op with
    | start limits input =>
      rcases step_start attempts limits input db with hd | hw
      · exact .inl (hd.symm ▸ hq)
      · exact hw.ledger_some hq
    | _ => simp [Event.isStart, Op.isStart] at hevent
  | _ => simp [Event.isStart] at hevent

/-- A start leaves the jobs that there are as they are. -/
theorem step_start_job {key : Key} {j : JobRow} (hevent : event.isStart = true)
    (hj : db.jobs.get key = some j) : (step event db).jobs.get key = some j := by
  cases event with
  | call attempts op =>
    cases op with
    | start limits input =>
      rcases step_start attempts limits input db with hd | hw
      · exact hd.symm ▸ hj
      · rw [hw.result]
        exact Table.get_insert_some hj
    | _ => simp [Event.isStart, Op.isStart] at hevent
  | _ => simp [Event.isStart] at hevent

theorem step_requeued {key : Key} {j j' : JobRow} (hj : db.jobs.get key = some j) (hrunning : j.state = .running)
    (hj' : (step event db).jobs.get key = some j') (hqueued : j'.state = .queued) {qkey : Key} {q : QuotaRow}
    (hq : db.quotaLedger.get qkey = some q) (hown : ReservedFor key qkey q) :
    (step event db).quotaLedger.get qkey = some q := by
  cases hstart : event.isStart with
  | true =>
    obtain rfl := Option.some.inj (hj'.symm.trans (step_start_job hstart hj))
    rw [hrunning] at hqueued
    cases hqueued
  | false =>
    rcases changes_ledgerKept (step_changes hstart db) qkey q hq with hkept | ⟨key', hr⟩
    · exact hkept
    · -- the job of a released row is over, and this one is queued
      have hkey : key' = key := by
        obtain ⟨htenant, hjob, -⟩ := hr.reserves
        obtain ⟨htenant', hjob'⟩ := hown
        have hid : key'.id = key.id := Option.some.inj (hjob.symm.trans hjob')
        cases key; cases key'
        simp_all
      obtain ⟨k, hk, hterminal⟩ := hr.after
      rw [hkey, hj'] at hk
      obtain rfl := Option.some.inj hk
      rw [hqueued] at hterminal
      cases hterminal

/-- Starts come from the case services. -/
def Issued : Event ρ σ → Prop
  | .call _ (.start _ input) => ServiceStart reservationLifetime input
  | _ => True

theorem step_released (hinv : Released db) (hissued : Issued event) : Released (step event db) := by
  cases hstart : event.isStart with
  | false =>
    have hchanges := step_changes hstart db
    generalize step event db = db' at hchanges ⊢
    induction hchanges with
    | refl => exact hinv
    | tail _ hc ih => exact hc.released ih
  | true =>
    cases event with
    | call attempts op =>
      cases op with
      | start limits input =>
        rcases step_start attempts limits input db with hd | hw
        · rw [hd]
          exact hinv
        · exact hw.released hissued hinv
      | _ => simp [Event.isStart, Op.isStart] at hstart
    | _ => simp [Event.isStart] at hstart

/-- In every state that a run reaches, reservations are released with their jobs. -/
theorem quota_released_with_job (now : Instant) (tenants : Table String TenantRow) (events : List (Event ρ σ))
    (hissued : ∀ event ∈ events, Issued event) : QuotaDiscipline (reached now tenants events) where
  released := by
    refine Runs.run_invariant (fun _ _ hi hg => step_released hi hg) ?_
      (Runs.guarded_of_forall hissued (Db.initial now tenants))
    intro key j qkey q hj
    cases hj
  requeued := fun _ _ _ _ hj hrunning hj' hqueued _ _ hq hown => step_requeued hj hrunning hj' hqueued hq hown
  once := fun qkey later => departures_le_one _ qkey later
  own := fun _ hstart => changes_ledgerKept (step_changes hstart _)
  expiry := fun _ _ _ hstart hq => step_expiry hstart hq

end ReproForge

namespace ReproForge

open Sample

/-- A job is started, claimed and requeued, then cancelled in the queue. -/
def Sample.requeuedRun : List (Event Empty Empty) :=
  [first, .call [] (.claimLease ⟨opening + 1000, "job-1", 60, "worker", "acme"⟩),
    .call [] (.releaseLease ⟨opening + 1000, 1, opening + 61000, "job-1", "worker", "acme"⟩
      ⟨opening + 2000, opening + 2000⟩),
    .call [] (.requestCancellation ⟨"caller", "caller", "acme"⟩ "job-1" (opening + 3000))]

theorem quota_released_with_job_sample : QuotaDiscipline (reached opening tenants requeuedRun) := by
  refine quota_released_with_job opening tenants requeuedRun ?_
  intro event hevent
  simp only [requeuedRun, List.mem_cons, List.not_mem_nil, or_false] at hevent
  rcases hevent with rfl | rfl | rfl | rfl
  · exact ⟨_, (Option.some_get _).symm⟩
  · trivial
  · trivial
  · trivial

end ReproForge
