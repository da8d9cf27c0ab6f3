import ReproForge.LeaseSafety

/-!
# The active-jobs limit

The ledger bounds reservations, the limit is about jobs. Every job that is not
over keeps a reserved ledger row of its own, so the jobs are bounded as long as
no start finds the reservation of an active job past its expiry. A reservation
has a fixed lifetime and nothing extends it, while a job can outlive it.
-/
namespace ReproForge

open KeyedTable Relation

variable {ρ σ : Type}

/-- A job in QUEUED or RUNNING. -/
def activeJob (tenantId : String) (key : Key) (j : JobRow) : Bool :=
  key.tenantId == tenantId && !j.state.terminal

def activeJobs (db : Db ρ σ) (tenantId : String) : Nat := db.jobs.count (activeJob tenantId)

/-- The ledger row is the active-jobs reservation of the job. -/
def Reserves (key qkey : Key) (q : QuotaRow) : Prop :=
  qkey.tenantId = key.tenantId ∧ q.jobId = some key.id ∧ q.resource = .activeJobs

/-- Every active job has a reservation of its own in the ledger. -/
structure ReservationHeld (db : Db ρ σ) (key : Key) : Prop where
  held : ∃ qkey q, db.quotaLedger.get qkey = some q ∧ Reserves key qkey q ∧ q.state = .reserved ∧
    1 ≤ q.reservedAmount ∧ q.windowEnd = q.expiresAt

structure ActiveJobsInv (limit : Nat) (db : Db ρ σ) : Prop where
  held : ∀ key j, db.jobs.get key = some j → j.state.terminal = false → ReservationHeld db key
  bounded : ∀ tenantId, activeJobs db tenantId ≤ limit

/-- No active job of the tenant has a reservation past its expiry. -/
def ReservationsAlive (db : Db ρ σ) (tenantId : String) : Prop :=
  ∀ key j qkey q, db.jobs.get key = some j → activeJob tenantId key j = true →
    db.quotaLedger.get qkey = some q → Reserves key qkey q → db.now < q.expiresAt

theorem activeJob_iff {tenantId : String} {key : Key} {j : JobRow} :
    activeJob tenantId key j = true ↔ key.tenantId = tenantId ∧ j.state.terminal = false := by
  simp [activeJob]

theorem reserves_unique {qkey a b : Key} {q : QuotaRow} (ha : Reserves a qkey q) (hb : Reserves b qkey q) :
    a = b := by
  obtain ⟨hat, haj, -⟩ := ha
  obtain ⟨hbt, hbj, -⟩ := hb
  cases a; cases b
  simp_all

/-! ## The expiry pass and the usage sum -/

theorem expiredLedger_get {db : Db ρ σ} {reservation : QuotaReservation} {qkey : Key} {q : QuotaRow}
    (hq : db.quotaLedger.get qkey = some q)
    (halive : expirable reservation.tenantId reservation.resource db.now qkey q = false) :
    (expiredLedger db reservation).get qkey = some q := by
  simp [expiredLedger, hq, halive]

theorem not_expirable {tenantId : String} {resource : QuotaResource} {now : Instant} {qkey : Key}
    {q : QuotaRow} (h : qkey.tenantId = tenantId → now < q.expiresAt) :
    expirable tenantId resource now qkey q = false := by
  by_cases ht : qkey.tenantId = tenantId
  · have hnot : ¬ q.expiresAt ≤ now := not_le.mpr (h ht)
    simp [expirable, hnot]
  · simp [expirable, ht]

/-- While no reservation of an active job has expired, the ledger counts every active job. -/
theorem activeJobs_le_usage {limit : Nat} {db : Db ρ σ} (hinv : ActiveJobsInv limit db)
    {reservation : QuotaReservation} (hresource : reservation.resource = .activeJobs)
    (halive : ReservationsAlive db reservation.tenantId) :
    activeJobs db reservation.tenantId ≤
      quotaUsage (expiredLedger db reservation) reservation.tenantId reservation.resource db.now := by
  refine le_trans ?_ (Table.count_le_sum (expiredLedger db reservation) _ QuotaRow.usage)
  refine Table.count_le_of_rel
    (fun key qkey => ∃ q, (expiredLedger db reservation).get qkey = some q ∧ Reserves key qkey q) ?_ ?_
  · intro key j hj hactive
    obtain ⟨htenant, hterminal⟩ := activeJob_iff.mp hactive
    obtain ⟨qkey, q, hq, hres, hstate, hamount, hwindow⟩ := (hinv.held key j hj hterminal).held
    have hlt := halive key j qkey q hj hactive hq hres
    have hq' : (expiredLedger db reservation).get qkey = some q :=
      expiredLedger_get hq (not_expirable (fun _ => hlt))
    refine ⟨qkey, q, hq', ?_, q, hq', hres⟩
    have hcounts : countsTowards reservation.tenantId reservation.resource db.now qkey q = true := by
      simp [countsTowards, hres.1, htenant, hres.2.2, hresource, hstate, hwindow, hlt]
    simp [hcounts, QuotaRow.usage, hstate, hamount]
  · rintro a b qkey ⟨q, hq, ha⟩ ⟨q', hq', hb⟩
    obtain rfl := Option.some.inj (hq.symm.trans hq')
    exact reserves_unique ha hb

variable [ResultDocument ρ] [RequestDocument σ] [Sha256] {event : Event ρ σ}

/-! ## What changes keep -/

omit [ResultDocument ρ] [RequestDocument σ] [Sha256] in
theorem activeJobs_le_of_progress {db db' : Db ρ σ}
    (h : ∀ key j', db'.jobs.get key = some j' → ∃ j, db.jobs.get key = some j ∧ JobProgress j j')
    (tenantId : String) : activeJobs db' tenantId ≤ activeJobs db tenantId := by
  refine Table.count_le_of_get ?_
  intro key j' hj' hactive
  obtain ⟨j, hj, hp⟩ := h key j' hj'
  refine ⟨j, hj, ?_⟩
  obtain ⟨ht, hterminal⟩ := activeJob_iff.mp hactive
  refine activeJob_iff.mpr ⟨ht, ?_⟩
  by_contra hover
  rw [hp.terminal (by simpa using hover)] at hterminal
  simp_all

/-- Any job of the changed database was there before. -/
theorem Change.job_back {db db' : Db ρ σ} (h : Change event db db') {key : Key} {j' : JobRow}
    (hj' : db'.jobs.get key = some j') : ∃ j, db.jobs.get key = some j ∧ JobProgress j j' := by
  cases h with
  | @job key' caseKey j k' c c' hw _ =>
    by_cases hk : key = key'
    · subst hk
      obtain rfl := Option.some.inj (hj'.symm.trans hw.job_get)
      exact ⟨j, hw.job, hw.step.progress⟩
    · exact ⟨j', (hw.job_get_other hk) ▸ hj', .refl j'⟩
  | audit key' row hd => exact ⟨j', by simpa [hd] using hj', .refl j'⟩
  | outbox hw _ => exact ⟨j', by simpa [hw.result] using hj', .refl j'⟩
  | environment now tenants artifacts deletions hd _ => exact ⟨j', by simpa [hd] using hj', .refl j'⟩

omit [ResultDocument ρ] [RequestDocument σ] [Sha256] in
/-- A release touches the rows of its own job only. -/
theorem releasedQuotas_get {t : Table Key QuotaRow} {tenantId jobId : String} {at' : Instant} {key qkey : Key}
    {q : QuotaRow} (hq : t.get qkey = some q) (hres : Reserves key qkey q)
    (hother : key ≠ ⟨tenantId, jobId⟩) : (releasedQuotas tenantId jobId at' t).get qkey = some q := by
  have hnot : activeJobReservation tenantId jobId qkey q = false := by
    by_contra hmatch
    simp only [activeJobReservation, Bool.not_eq_false, Bool.and_eq_true, beq_iff_eq] at hmatch
    obtain ⟨⟨⟨ht, hj⟩, -⟩, -⟩ := hmatch
    apply hother
    have hid : key.id = jobId := Option.some.inj (hres.2.1.symm.trans hj)
    have htenant : key.tenantId = tenantId := hres.1.symm.trans ht
    cases key
    simp_all
  simp [releasedQuotas, hq, hnot]

/-- A change keeps the reservation of every job that it does not end. -/
theorem Change.reservationHeld {db db' : Db ρ σ} (h : Change event db db') {key : Key} {j' : JobRow}
    (hj' : db'.jobs.get key = some j') (hactive : j'.state.terminal = false)
    (hheld : ReservationHeld db key) : ReservationHeld db' key := by
  obtain ⟨qkey, q, hq, hres, hrest⟩ := hheld.held
  cases h with
  | @job key' caseKey j k' c c' hw _ =>
    refine ⟨qkey, q, ?_, hres, hrest⟩
    rw [hw.result]
    simp only
    split
    · rename_i hterminal
      refine releasedQuotas_get hq hres ?_
      rintro rfl
      rw [Option.some.inj (hj'.symm.trans hw.job_get)] at hactive
      simp [hactive] at hterminal
    · exact hq
  | audit key' row hd => exact ⟨qkey, q, by simpa [hd] using hq, hres, hrest⟩
  | outbox hw _ => exact ⟨qkey, q, by simpa [hw.result] using hq, hres, hrest⟩
  | environment now tenants artifacts deletions hd _ => exact ⟨qkey, q, by simpa [hd] using hq, hres, hrest⟩

theorem Change.activeJobsInv {limit : Nat} {db db' : Db ρ σ} (hinv : ActiveJobsInv limit db)
    (h : Change event db db') : ActiveJobsInv limit db' where
  held key j' hj' hactive := by
    obtain ⟨j, hj, hp⟩ := h.job_back hj'
    refine h.reservationHeld hj' hactive (hinv.held key j hj ?_)
    by_contra hover
    rw [hp.terminal (by simpa using hover)] at hactive
    simp_all
  bounded tenantId :=
    (activeJobs_le_of_progress (fun _ _ hj' => h.job_back hj') tenantId).trans (hinv.bounded tenantId)

/-! ## What a start keeps -/

theorem StartWrite.activeJobsInv {limits : QuotaLimits} {lifetime : Int} {input : DurableStartInput ρ σ}
    {db db' : Db ρ σ} (hinv : ActiveJobsInv (limits.limit .activeJobs) db)
    (hservice : ServiceStart lifetime input) (halive : ReservationsAlive db input.record.tenantId)
    (h : StartWrite limits input db db') : ActiveJobsInv (limits.limit .activeJobs) db' := by
  obtain ⟨command, hcommand⟩ := hservice
  obtain ⟨-, -, hamount, hresource, hjob, htenant, hqueued, -⟩ := startInput_some hcommand
  have hresult := h.result
  constructor
  · intro key j hj hactive
    by_cases hk : key = recordJobKey input.record
    · -- the new job is covered by the row that its own start inserts
      subst hk
      refine ⟨reservationKey input.quotaReservation,
        newReservation input.quotaReservation input.record.snapshot.job.createdAt db.now, ?_, ?_, rfl, ?_, rfl⟩
      · rw [hresult]
        refine Table.get_insert_self ?_
        simp [expiredLedger, h.reservation]
      · exact ⟨htenant, by rw [newReservation, hjob]; rfl, hresource⟩
      · simp [newReservation, hamount]
    · -- an older job keeps its row: the expiry pass spares it, the insertion is elsewhere
      have hjob' : db.jobs.get key = some j := by
        rw [hresult] at hj
        simpa only [Table.get_insert_other hk] using hj
      obtain ⟨qkey, q, hq, hres, hrest⟩ := (hinv.held key j hjob' hactive).held
      have hspared : (expiredLedger db input.quotaReservation).get qkey = some q := by
        refine expiredLedger_get hq (not_expirable ?_)
        intro ht
        refine halive key j qkey q hjob' (activeJob_iff.mpr ⟨?_, hactive⟩) hq hres
        rw [← hres.1, ht, htenant]
      refine ⟨qkey, q, ?_, hres, hrest⟩
      rw [hresult]
      have hne : qkey ≠ reservationKey input.quotaReservation := by
        rintro rfl
        rw [h.reservation] at hq
        cases hq
      simpa only [Table.get_insert_other hne] using hspared
  · intro tenantId
    have hcount : activeJobs db' tenantId =
        activeJobs db tenantId + if tenantId = input.record.tenantId then 1 else 0 := by
      rw [hresult, activeJobs, Table.count_insert _ h.job]
      congr 1
      by_cases ht : tenantId = input.record.tenantId
      · simp [activeJob, recordJobKey, newJob, hqueued, JobState.terminal, ht]
      · have ht' : ¬ input.record.tenantId = tenantId := fun he => ht he.symm
        simp [activeJob, recordJobKey, ht, ht']
    rw [hcount]
    by_cases ht : tenantId = input.record.tenantId
    · subst ht
      rw [← htenant] at halive ⊢
      have hle := activeJobs_le_usage hinv hresource halive
      have husage := h.usage
      rw [hamount, hresource] at husage
      rw [hresource] at hle
      simp only [if_true]
      omega
    · simp only [ht, if_false, Nat.add_zero]
      exact hinv.bounded tenantId

/-! ## Runs -/

/-- Starts come from the case services, under one set of limits. -/
def ServiceEvent (limits : QuotaLimits) (lifetime : Int) : Event ρ σ → Prop
  | .call _ (.start l input) => l = limits ∧ ServiceStart lifetime input
  | _ => True

/-- A start finds no reservation of an active job of its tenant past its expiry. -/
def ReservationsCovered (db : Db ρ σ) : Event ρ σ → Prop
  | .call _ (.start _ input) => ReservationsAlive db input.record.tenantId
  | _ => True

theorem step_activeJobsInv {limits : QuotaLimits} {lifetime : Int} {db : Db ρ σ} {event : Event ρ σ}
    (hinv : ActiveJobsInv (limits.limit .activeJobs) db)
    (hevent : ServiceEvent limits lifetime event ∧ ReservationsCovered db event) :
    ActiveJobsInv (limits.limit .activeJobs) (step event db) := by
  cases hstart : event.isStart with
  | false =>
    have hchanges := step_changes hstart db
    generalize step event db = db' at hchanges ⊢
    induction hchanges with
    | refl => exact hinv
    | tail _ hc ih => exact hc.activeJobsInv ih
  | true =>
    cases event with
    | call attempts op =>
      cases op with
      | start l input =>
        obtain ⟨⟨rfl, hservice⟩, hcovered⟩ := hevent
        rcases step_start attempts l input db with hd | hw
        · rw [hd]
          exact hinv
        · exact hw.activeJobsInv hinv hservice hcovered
      | _ => simp [Event.isStart, Op.isStart] at hstart
    | _ => simp [Event.isStart] at hstart

omit [ResultDocument ρ] [RequestDocument σ] [Sha256] in
theorem initial_activeJobsInv (limit : Nat) (now : Instant) (tenants : Table String TenantRow) :
    ActiveJobsInv limit (Db.initial now tenants : Db ρ σ) where
  held := by
    intro key j hj
    cases hj
  bounded := fun _ => Nat.zero_le limit

/-- While starts are covered, no tenant has more active jobs than its limit. -/
theorem active_jobs_bounded (limits : QuotaLimits) (lifetime : Int) (now : Instant)
    (tenants : Table String TenantRow) (events : List (Event ρ σ))
    (hservice : ∀ event ∈ events, ServiceEvent limits lifetime event)
    (hcovered : Runs.Guarded step ReservationsCovered events (Db.initial now tenants)) (tenantId : String) :
    activeJobs (reached now tenants events) tenantId ≤ limits.limit .activeJobs := by
  have hguard := (Runs.guarded_of_forall hservice (Db.initial now tenants)).and hcovered
  have hinv := Runs.run_invariant (fun _ _ hi hg => step_activeJobsInv hi hg)
    (initial_activeJobsInv (limits.limit .activeJobs) now tenants) hguard
  exact hinv.bounded tenantId

end ReproForge

namespace ReproForge

open KeyedTable Sample

theorem serviceEvent_issue (c : StartCommand Empty)
    (h : (startInput (ρ := Empty) reservationLifetime c).isSome = true) :
    ServiceEvent .default reservationLifetime (issue c h) :=
  ⟨rfl, c, (Option.some_get h).symm⟩

theorem active_jobs_bounded_sample :
    activeJobs (reached opening tenants [first, .clock (opening + 2 * reservationLifetime)]) "acme" ≤ 2 := by
  refine active_jobs_bounded .default reservationLifetime opening tenants _ ?_ ?_ "acme"
  · intro event hevent
    simp only [List.mem_cons, List.not_mem_nil, or_false] at hevent
    rcases hevent with rfl | rfl
    · exact serviceEvent_issue _ _
    · trivial
  · refine ⟨?_, trivial, trivial⟩
    intro key j qkey q hj
    cases hj

/-- Two jobs are queued, their reservations run out, and a third job is started. -/
def Sample.lateStart : List (Event Empty Empty) :=
  [first, second, .clock (opening + reservationLifetime),
    issue (command "case-3" "job-3" "key-3" (opening + reservationLifetime)) (by decide +kernel)]

/-- Every start of the run comes from a service, and the tenant ends up with
three active jobs under a limit of two. -/
theorem active_jobs_limit_exceeded :
    ¬ ∀ (events : List (Event Empty Empty)) (tenantId : String),
      (∀ event ∈ events, ServiceEvent .default reservationLifetime event) →
        activeJobs (reached opening tenants events) tenantId ≤ QuotaLimits.default.limit .activeJobs := by
  intro hclaim
  have hservice : ∀ event ∈ lateStart, ServiceEvent .default reservationLifetime event := by
    intro event hevent
    simp only [lateStart, List.mem_cons, List.not_mem_nil, or_false] at hevent
    rcases hevent with rfl | rfl | rfl | rfl
    · exact serviceEvent_issue _ _
    · exact serviceEvent_issue _ _
    · trivial
    · exact serviceEvent_issue _ _
  have hthree : activeJobs (reached opening tenants lateStart) "acme" = 3 := by decide +kernel
  have hle := hclaim lateStart "acme" hservice
  rw [hthree] at hle
  exact absurd hle (by decide)

end ReproForge
