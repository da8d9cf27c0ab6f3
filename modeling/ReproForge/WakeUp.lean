import ReproForge.QueueEntries

/-!
# No lost wake-up

An event is published before it counts as delivered, and its message stays in
flight until a consumer that is in time has found the job out of the queue. A
consumer whose clock lags claims nothing, acknowledges all the same, and the
wake-up is gone.
-/
namespace ReproForge

open KeyedTable Transactions Transactions.Tx Relation

variable {ρ σ : Type} [ResultDocument ρ] [RequestDocument σ] [Sha256]

/-! ## What the answers of the repository mean -/

omit [ResultDocument ρ] [RequestDocument σ] [Sha256] in
theorem updateRow_refused {κ τ : Type} [DecidableEq κ] {rows : Db ρ σ → Table κ τ}
    {store : Table κ τ → Db ρ σ → Db ρ σ} {allowed : κ → τ → τ → Bool} {key : κ} {condition : τ → Bool}
    {assign : τ → τ} {db db' : Db ρ σ} (h : updateRow rows store allowed key condition assign db = (.ok none, db'))
    {row : τ} (hrow : (rows db).get key = some row) : condition row = false := by
  cases hc : condition row with
  | false => rfl
  | true =>
    simp only [updateRow, hrow, hc, if_true] at h
    split at h <;> simp at h

omit [ResultDocument ρ] [RequestDocument σ] [Sha256] in
/-- A claim that is answered with no lease found the tenant inactive or the job not claimable. -/
theorem claimLease_refused {input : ClaimInput} {db db' : Db ρ σ} (h : claimLease input db = (.ok none, db')) :
    tenantActive db input.tenantId = false ∨
      ∀ j, db.jobs.get ⟨input.tenantId, input.jobId⟩ = some j → j.claimable input.at' = false := by
  simp only [claimLease, bind_ok, require_ok, read_ok] at h
  obtain ⟨_, _, ⟨-, rfl⟩, _, _, ⟨rfl, rfl⟩, h⟩ := h
  split at h
  · simp only [bind_ok, require_ok] at h
    obtain ⟨_, _, ⟨-, rfl⟩, result, t, hu, h⟩ := h
    cases result with
    | none => exact .inr (fun j hj => updateRow_refused hu hj)
    | some row =>
      simp only [bind_ok, pure_ok] at h
      obtain ⟨_, _, _, _, _, _, _, _, _, _, _, _, hr, -⟩ := h
      cases hr
  · rename_i hactive
    exact .inl (by simpa using hactive)

omit [ResultDocument ρ] [RequestDocument σ] [Sha256] in
/-- Every claim on the outbox carries the message of its row. -/
theorem claimPending_recorded {input : ClaimPendingInput} {locked : List Key} {claims : List OutboxClaim}
    {db db' : Db ρ σ} (h : claimPending input locked db = (.ok claims, db')) :
    ∀ claim ∈ claims, Recorded db' claim.message := by
  simp only [claimPending] at h
  split at h
  · simp only [bind_ok, require_ok, read_ok] at h
    obtain ⟨_, _, ⟨-, rfl⟩, _, _, ⟨rfl, rfl⟩, hloop⟩ := h
    refine (forEach_replies (P := fun db claim => Recorded db claim.message) ?_ hloop).1
    intro event claim s s' hclaim
    obtain ⟨o, hw, rfl⟩ := claimEvent_ok hclaim
    have hallowed := hw.allowed
    simp only [outboxUpdateAllowed, OutboxRow.checks, Bool.and_eq_true, beq_iff_eq] at hallowed
    obtain ⟨-, ⟨⟨⟨⟨⟨⟨-, hid⟩, htenant⟩, -⟩, -⟩, -⟩, -⟩, -⟩ := hallowed
    have hkey : messageKey o.payload = event.1 := by
      have hid : o.payload.eventId = event.1.id := hid
      have htenant : o.payload.tenantId = event.1.tenantId := htenant
      rw [messageKey, hid, htenant]
    constructor
    · refine ⟨o.claimed input.ownerId input.at' (input.at' + input.claimSeconds * 1000), ?_, rfl⟩
      rw [hw.result, hkey]
      exact Table.get_set_self hw.event
    · rintro claim' ⟨o₁, ho₁, hp₁⟩
      obtain ⟨o₂, ho₂, hp₂⟩ := hw.rows ho₁
      exact ⟨o₂, ho₂, hp₂.trans hp₁⟩
  · obtain ⟨rfl, -⟩ := pure_ok.mp h
    intro claim hc
    cases hc

/-! ## A claim that is due -/

omit [ResultDocument ρ] [RequestDocument σ] [Sha256] in
theorem updateRow_done {κ τ : Type} [DecidableEq κ] {rows : Db ρ σ → Table κ τ}
    {store : Table κ τ → Db ρ σ → Db ρ σ} {allowed : κ → τ → τ → Bool} {key : κ} {condition : τ → Bool}
    {assign : τ → τ} {db : Db ρ σ} {row : τ} (hrow : (rows db).get key = some row) (hc : condition row = true)
    (ha : allowed key row (assign row) = true) :
    updateRow rows store allowed key condition assign db =
      (.ok (some (assign row)), store ((rows db).set key (assign row)) db) := by
  simp only [updateRow, hrow, hc, ha, if_true]

omit [ResultDocument ρ] [RequestDocument σ] [Sha256] in
theorem advanceCaseVersion_done (db : Db ρ σ) {tenantId caseId : String} {updatedAt : Instant} {c : CaseRow ρ σ}
    (hc : db.cases.get ⟨tenantId, caseId⟩ = some c) (hchecks : c.checks ⟨tenantId, caseId⟩ = true)
    (hat : c.updatedAt ≤ updatedAt) (hversion : c.version < maxSafeInteger) :
    ∃ db', advanceCaseVersion tenantId caseId c.version updatedAt db = (.ok (), db') := by
  have hallowed : caseUpdateAllowed ⟨tenantId, caseId⟩ c (c.advanced updatedAt) = true := by
    simp only [CaseRow.checks, Bool.and_eq_true, decide_eq_true_eq] at hchecks
    obtain ⟨⟨⟨⟨hid, hschema⟩, -⟩, horder⟩, hretention⟩ := hchecks
    have hcreated : c.createdAt ≤ updatedAt := horder.trans hat
    have hpos : 1 ≤ c.version + 1 := Nat.le_add_left 1 _
    simp only [caseUpdateAllowed, successorVersion, CaseRow.checks, CaseRow.advanced, beq_self_eq_true, hat, hid,
      hschema, hcreated, hpos, hretention, decide_true, Bool.and_self]
  have hnext : integer (c.version + 1) = some (c.version + 1) := integer_some.mpr ⟨rfl, hversion⟩
  have hupdate : updateCase ⟨tenantId, caseId⟩ (fun c' => c'.version == c.version) (CaseRow.advanced updatedAt) db =
      (.ok (some (c.advanced updatedAt)), _) := updateRow_done hc (by simp) hallowed
  have hreturned : integer (c.advanced updatedAt).version = some (c.version + 1) := hnext
  simp only [advanceCaseVersion, saveCase, returnedVersion, bind_apply, hupdate, Option.map_some, Option.getD_some,
    hreturned, demand_some, beq_self_eq_true, require_true]
  exact ⟨_, rfl⟩

omit [ResultDocument ρ] [RequestDocument σ] [Sha256] in
/-- The constraints let the claim of a queued job through. -/
theorem claimed_allowed {key : Key} {j : JobRow} {ownerId : String} {acquiredAt expiresAt : Instant}
    (hchecks : j.checks key = true) (hqueued : j.state = .queued) (hattempts : j.attempt < j.maxAttempts)
    (hat : j.updatedAt ≤ acquiredAt) (hlease : acquiredAt < expiresAt) :
    jobUpdateAllowed key j (j.claimed ownerId acquiredAt expiresAt) = true := by
  simp only [JobRow.checks, JobRow.failureShape, JobRow.cancellationShape, hqueued, Bool.and_eq_true,
    decide_eq_true_eq, if_neg, reduceCtorEq, not_false_eq_true, Option.isNone_iff_eq_none] at hchecks
  obtain ⟨⟨⟨⟨⟨⟨⟨⟨⟨⟨⟨⟨hid, hmax⟩, -⟩, -⟩, hfailure⟩, hcancel⟩, -⟩, horder⟩, hretention⟩, hrequested⟩, -⟩, -⟩, -⟩ := hchecks
  have hcreated : j.createdAt ≤ acquiredAt := horder.trans hat
  have hpos : 1 ≤ j.version + 1 := Nat.le_add_left 1 _
  have hnext : j.attempt + 1 ≤ j.maxAttempts := hattempts
  simp [jobUpdateAllowed, successorVersion, jobTransition, cancellationTimestamps, JobRow.checks,
    JobRow.leaseComplete, JobRow.failureShape, JobRow.cancellationShape, JobRow.claimed, hqueued, hid, hmax, hat,
    hlease, hfailure, hcancel, hcreated, hpos, hnext, hretention, hrequested]

/-- A claim that is due takes the job. -/
theorem claimLease_due {db : Db ρ σ} (hdb : Sound db) {key : Key} {j : JobRow} (hj : Waiting db key j)
    {input : ClaimInput} (hdue : Due db key j input) :
    ∃ lease db', claimLease input db = (.ok (some lease), db') := by
  obtain ⟨tenantId, jobId⟩ := key
  obtain ⟨hjobId, htenantId, howner, hlower, hupper, hreading, hexpiry, hscheduled, hupdated, hcaseUpdated, hversion⟩ :=
    hdue
  subst hjobId htenantId
  obtain ⟨row, hrow, hkey⟩ := hdb.lockstep.jobOwned _ j hj.job
  have hjob : row.job = j := Option.some.inj ((hkey ▸ hrow.job).symm.trans hj.job)
  have hreadable := hdb.lockstep.readable row hrow
  have htenant : row.key.tenantId = input.tenantId := congrArg Key.tenantId hkey
  have hcase : db.cases.get ⟨input.tenantId, j.caseId⟩ = some row.case := by
    have hc := hrow.case
    rwa [DurableRow.caseKey, htenant, ← hrow.caseId, hjob] at hc
  have hversions : row.case.version = j.version := hreadable.version.trans (congrArg JobRow.version hjob)
  have hchecks := hdb.jobsChecked _ j hj.job
  have hlease : input.at' < input.expiresAt :=
    Int.lt_add_of_pos_right input.at' (Int.mul_pos (by omega) (by decide))
  have hclaimable : j.claimable input.at' = true := by
    simp [JobRow.claimable, hj.queued, hj.attempts, hscheduled]
  have hupdate : updateJob ⟨input.tenantId, input.jobId⟩ (JobRow.claimable input.at')
      (JobRow.claimed input.ownerId input.at' input.expiresAt) db =
      (.ok (some (j.claimed input.ownerId input.at' input.expiresAt)), _) :=
    updateRow_done hj.job hclaimable (claimed_allowed hchecks hj.queued hj.attempts hupdated hlease)
  obtain ⟨db', hadvance⟩ := advanceCaseVersion_done
    { db with
      jobs := db.jobs.set ⟨input.tenantId, input.jobId⟩ (j.claimed input.ownerId input.at' input.expiresAt) }
    hcase (hdb.casesChecked _ _ hcase) (hcaseUpdated _ hcase) (hversions ▸ hversion)
  have hnext : integer (j.claimed input.ownerId input.at' input.expiresAt).version = some (j.version + 1) :=
    integer_some.mpr ⟨rfl, hversion⟩
  have hattempts : j.attempt + 1 ≤ 3 := hdb.maxAttempts _ j hj.job ▸ hj.attempts
  have hattempt : integer (j.claimed input.ownerId input.at' input.expiresAt).attempt = some (j.attempt + 1) :=
    integer_some.mpr ⟨rfl, hattempts.trans (by decide)⟩
  have hid : opaqueId input.jobId = true := by
    simp only [JobRow.checks, Bool.and_eq_true] at hchecks
    tauto
  have hscope : opaqueId input.tenantId = true := htenant ▸ hreadable.anchor.tenantId
  have hvalid : (⟨input.at', j.attempt + 1, input.expiresAt, input.jobId, input.ownerId, input.tenantId⟩ :
      JobLease).valid = true := by
    have hhundred : j.attempt + 1 ≤ 100 := hattempts.trans (by decide)
    simp [JobLease.valid, hreading, hexpiry, hid, howner, hscope, hlease, hhundred]
  have hcaseId : (j.claimed input.ownerId input.at' input.expiresAt).caseId = j.caseId := rfl
  rw [hversions] at hadvance
  simp only [claimLease, bind_apply, read_apply, hreading, hlower, hupper, hj.active, hexpiry, hupdate, hnext,
    hadvance, hattempt, hvalid, decide_true, Bool.and_self, require_true, if_true, demand_some, pure_apply,
    Nat.add_sub_cancel, hcaseId]
  exact ⟨_, _, rfl⟩

/-! ## The queue -/

/-- No waiting job depends on the message. -/
def Spent (db : Db ρ σ) (message : QueueMessage) : Prop :=
  ∀ key j, Waiting db key j → message ≠ wakeUp key j

structure QueueInv (w : Delivery ρ σ) : Prop where
  sound : Sound w.db
  recorded : ∀ message ∈ w.accepted, Recorded w.db message
  claims : ∀ claim ∈ w.claims, Recorded w.db claim.message
  sent : ∀ claim ∈ w.sent, claim.message ∈ w.accepted
  inFlight : ∀ message ∈ w.inFlight, message ∈ w.accepted
  delivered : ∀ key o, w.db.outboxEvents.get key = some o → o.status = .delivered → o.payload ∈ w.accepted
  carried : ∀ message ∈ w.accepted, message ∈ w.inFlight ∨ Spent w.db message
  answered : ∀ message ∈ w.answered, message ∈ w.accepted ∧ Spent w.db message

section queue

variable {event : Event ρ σ} {db db' : Db ρ σ}

omit [ResultDocument ρ] [RequestDocument σ] in
theorem Recorded.kept {message : QueueMessage} (h : Recorded db message) (ha : Advance event db db') :
    Recorded db' message := by
  obtain ⟨o, ho, hp⟩ := h
  obtain ⟨o', ho', hp'⟩ := ha.rows _ o ho
  exact ⟨o', ho', hp'.trans hp⟩

/-- A message that no job depends on stays so: a job enters the queue under a new event only. -/
theorem Spent.kept (hdb : Sound db) {message : QueueMessage} (hrecorded : Recorded db message)
    (h : Spent db message) (ha : Advance event db db') : Spent db' message := by
  rintro key j' ⟨hj', hs, hactive, hattempts⟩ rfl
  rcases ha.entries key j' hj' hs with ⟨j, hj, hsj, hcase, hattempt, hmax⟩ | hfresh
  · refine h key j ⟨hj, hsj, ?_, ?_⟩ (wakeUp_congr hcase hattempt)
    · obtain ⟨t, ht⟩ := hdb.tenants key j hj
      obtain ⟨t', ht', hback⟩ := ha.tenants _ t ht
      simp only [tenantActive, ht', Option.any_some, beq_iff_eq] at hactive
      simp [tenantActive, ht, hback hactive]
    · rw [← hattempt, ← hmax]
      exact hattempts
  · obtain ⟨o, ho, -⟩ := hrecorded
    rw [hfresh] at ho
    cases ho

/-- A change of the database that reports deliveries of sent messages only keeps the queue sound. -/
theorem QueueInv.advance {w : Delivery ρ σ} (h : QueueInv w) (hs : Sound db') (ha : Advance event w.db db')
    (hdelivers : ∀ claim, event.delivers claim → claim.message ∈ w.accepted) : QueueInv { w with db := db' } where
  sound := hs
  recorded := fun message hm => (h.recorded message hm).kept ha
  claims := fun claim hc => (h.claims claim hc).kept ha
  sent := h.sent
  inFlight := h.inFlight
  delivered := by
    intro key o' ho' hd
    rcases ha.delivered key o' ho' hd with ⟨o, ho, hp, hd⟩ | ⟨claim, hclaim, rfl⟩
    · exact hp ▸ h.delivered key o ho hd
    · obtain ⟨o₁, ho₁, hp₁⟩ := (h.recorded _ (hdelivers claim hclaim)).kept ha
      obtain rfl := Option.some.inj (ho'.symm.trans ho₁)
      rw [hp₁]
      exact hdelivers claim hclaim
  carried := by
    intro message hm
    exact (h.carried message hm).imp id (fun hspent => hspent.kept h.sound (h.recorded message hm) ha)
  answered := by
    intro message hm
    obtain ⟨haccepted, hspent⟩ := h.answered message hm
    exact ⟨haccepted, hspent.kept h.sound (h.recorded message haccepted) ha⟩

/-- An answer to the claim that a consumer made in time leaves no job waiting for its message. -/
theorem spent_of_claim {message : QueueMessage} {ownerId : String} {leaseSeconds : Int} {at' : Instant}
    (hintime : ∀ key j, db.jobs.get key = some j → j.state = .queued → message = wakeUp key j →
      j.nextAttemptAt ≤ at')
    {reply : Option JobLease}
    (h : claimLease (message.claimInput ownerId leaseSeconds at') db = (.ok reply, db')) : Spent db' message := by
  rintro ⟨tenantId, jobId⟩ j' ⟨hj', hs, hactive, hattempts⟩ hwake
  obtain ⟨htenant, hjobId⟩ := wakeUp_job ⟨tenantId, jobId⟩ j'
  rw [← hwake] at htenant hjobId
  subst htenant hjobId
  rcases claimLease_ok h with ⟨rfl, rfl⟩ | ⟨j, c, -, hw⟩
  · rcases claimLease_refused h with hinactive | hnot
    · simp only [QueueMessage.claimInput] at hinactive
      rw [hinactive] at hactive
      cases hactive
    · have hdue := hintime _ j' hj' hs hwake
      have hclaimable := hnot j' hj'
      simp [JobRow.claimable, QueueMessage.claimInput, hs, hattempts, hdue] at hclaimable
  · obtain rfl := Option.some.inj (hj'.symm.trans hw.job_get)
    simp [JobRow.claimed] at hs

end queue

theorem QueueInv.receive {w : Delivery ρ σ} (h : QueueInv w) (hdigests : DistinctDigests w.db)
    {attempts : List Attempt} {message : QueueMessage} {ownerId : String} {leaseSeconds : Int} {at' : Instant}
    (hm : message ∈ w.inFlight)
    (hintime : ∀ key j, w.db.jobs.get key = some j → j.state = .queued → message = wakeUp key j →
      j.nextAttemptAt ≤ at') :
    QueueInv (w.receive attempts message (message.claimInput ownerId leaseSeconds at')) := by
  have haccepted := h.inFlight message hm
  simp only [Delivery.receive]
  split
  · -- the transaction is an event of the database, and an answer settles the message
    have hstep := runSerializableTransaction_discard 3 attempts
      (claimLease (message.claimInput ownerId leaseSeconds at')) w.db
    obtain ⟨hs, ha⟩ := step_sound (.call attempts
      (.claimLease (message.claimInput ownerId leaseSeconds at'))) h.sound hdigests (fun _ he => he.elim)
      (fun _ _ _ he => by cases he) (fun _ he => by cases he)
    rw [show ReproForge.step (.call attempts (.claimLease (message.claimInput ownerId leaseSeconds at'))) w.db = _
      from hstep] at hs ha
    have hbase := h.advance hs ha (fun _ he => he.elim)
    split
    · rename_i reply db' hrun
      rw [hrun] at hbase
      have hspent := spent_of_claim hintime (runSerializableTransaction_ok hrun)
      refine ⟨hbase.sound, hbase.recorded, hbase.claims, hbase.sent, hbase.inFlight, hbase.delivered, hbase.carried, ?_⟩
      intro message' hm'
      rcases List.mem_cons.mp hm' with rfl | hm'
      · exact ⟨haccepted, hspent⟩
      · exact hbase.answered message' hm'
    · rename_i e db' hrun
      rw [hrun] at hbase
      exact hbase
  · rename_i hwakes
    refine ⟨h.sound, h.recorded, h.claims, h.sent, h.inFlight, h.delivered, h.carried, ?_⟩
    intro message' hm'
    rcases List.mem_cons.mp hm' with rfl | hm'
    · refine ⟨haccepted, ?_⟩
      rintro key j - rfl
      exact hwakes (wakeUp_wakes key j)
    · exact h.answered message' hm'

/-- Every action of the parties keeps the invariant while consumers are in time. -/
theorem QueueInv.step {w : Delivery ρ σ} (h : QueueInv w) {action : DeliveryAction ρ σ}
    (hp : w.Permitted action) (hintime : w.InTime action) (hdigests : DistinctDigests w.db) :
    QueueInv (Delivery.step action w) := by
  cases action with
  | event event =>
    obtain ⟨hedits, hdelivers, hstarts, htenants⟩ := hp
    obtain ⟨hs, ha⟩ := step_sound event h.sound hdigests hedits hstarts htenants
    exact h.advance hs ha (fun claim hc => absurd hc (hdelivers claim))
  | claimPending attempts input locked =>
    have hstep := runSerializableTransaction_discard 3 attempts (ReproForge.claimPending input locked) w.db
    obtain ⟨hs, ha⟩ := step_sound (.call attempts (.claimPending input locked)) h.sound hdigests
      (fun _ he => he.elim) (fun _ _ _ he => by cases he) (fun _ he => by cases he)
    rw [show ReproForge.step (.call attempts (.claimPending input locked)) w.db = _ from hstep] at hs ha
    have hbase := h.advance hs ha (fun _ he => he.elim)
    simp only [Delivery.step]
    split
    · rename_i claims db' hrun
      rw [hrun] at hbase
      have hheld := claimPending_recorded (runSerializableTransaction_ok hrun)
      refine ⟨hbase.sound, hbase.recorded, ?_, hbase.sent, hbase.inFlight, hbase.delivered, hbase.carried,
        hbase.answered⟩
      intro claim hc
      rcases List.mem_append.mp hc with hc | hc
      · exact hheld claim hc
      · exact hbase.claims claim hc
    · rename_i e db' hrun
      rw [hrun] at hbase
      exact hbase
  | send claim outcome =>
    obtain ⟨hclaim, hrepeated⟩ := hp
    have haccept : ∀ sent, (∀ c ∈ sent, c = claim ∨ c ∈ w.sent) → QueueInv { w with
        inFlight := claim.message :: w.inFlight
        accepted := claim.message :: w.accepted
        sent := sent } := by
      intro sent hsent
      refine ⟨h.sound, ?_, h.claims, ?_, ?_, ?_, ?_, ?_⟩
      · intro message hm
        rcases List.mem_cons.mp hm with rfl | hm
        · exact h.claims claim hclaim
        · exact h.recorded message hm
      · intro c hc
        rcases hsent c hc with rfl | hc
        · exact List.mem_cons_self
        · exact List.mem_cons_of_mem _ (h.sent c hc)
      · intro message hm
        exact List.mem_cons.mpr ((List.mem_cons.mp hm).imp id (h.inFlight message))
      · intro key o ho hd
        exact List.mem_cons_of_mem _ (h.delivered key o ho hd)
      · intro message hm
        rcases List.mem_cons.mp hm with rfl | hm
        · exact .inl List.mem_cons_self
        · exact (h.carried message hm).imp (List.mem_cons_of_mem _) id
      · intro message hm
        exact ⟨List.mem_cons_of_mem _ (h.answered message hm).1, (h.answered message hm).2⟩
    cases outcome with
    | accepted => exact haccept (claim :: w.sent) (fun c hc => List.mem_cons.mp hc)
    | unreported => exact haccept w.sent (fun c hc => .inr hc)
    | rejected => exact h
    | repeated =>
      refine ⟨h.sound, h.recorded, h.claims, ?_, h.inFlight, h.delivered, h.carried, h.answered⟩
      intro c hc
      rcases List.mem_cons.mp hc with rfl | hc
      · exact hrepeated rfl
      · exact h.sent c hc
  | markDelivered attempts claim input =>
    obtain ⟨hs, ha⟩ := step_sound (.call attempts (.markDelivered claim input)) h.sound hdigests
      (fun _ he => he.elim) (fun _ _ _ he => by cases he) (fun _ he => by cases he)
    refine h.advance hs ha ?_
    rintro c rfl
    exact h.sent c hp
  | receive attempts message ownerId leaseSeconds at' => exact h.receive hdigests hp hintime
  | acknowledge message =>
    refine ⟨h.sound, h.recorded, h.claims, h.sent, ?_, h.delivered, ?_, ?_⟩
    · intro message' hm'
      exact h.inFlight message' (List.mem_of_mem_erase hm')
    · intro message' hm'
      by_cases he : message' = message
      · subst he
        exact .inr (h.answered message' hp).2
      · exact (h.carried message' hm').imp (fun hin => (List.mem_erase_of_ne he).mpr hin) id
    · intro message' hm'
      exact h.answered message' (List.mem_of_mem_erase hm')

/-- The wake-up of a waiting job is an event to publish or a message in the queue. -/
theorem QueueInv.woken {w : Delivery ρ σ} (h : QueueInv w) : Woken w := by
  intro key j hj
  obtain ⟨o, ho, hp⟩ := h.sound.events key j hj.job hj.queued
  cases hstatus : o.status with
  | pending => exact .inl ⟨o, ho, hp, .inl hstatus⟩
  | sending => exact .inl ⟨o, ho, hp, .inr (.inl hstatus)⟩
  | dead => exact .inl ⟨o, ho, hp, .inr (.inr hstatus)⟩
  | delivered =>
    right
    have haccepted := h.delivered _ o ho hstatus
    rw [hp] at haccepted
    rcases h.carried _ haccepted with hin | hspent
    · exact ⟨hin, fun input hdue => claimLease_due h.sound hj hdue⟩
    · exact absurd rfl (hspent key j hj)

theorem queueInv_initial (now : Instant) (tenants : Table String TenantRow) :
    QueueInv (Delivery.initial now tenants : Delivery ρ σ) where
  sound :=
    { lockstep := lockstep_initial now tenants
      jobsChecked := initial_jobsChecked now tenants
      casesChecked := by intro key c h; cases h
      maxAttempts := by intro key j h; cases h
      tenants := by intro key j h; cases h
      events := by intro key j h; cases h
      named := by intro key o h; cases h }
  recorded := by intro message h; cases h
  claims := by intro claim h; cases h
  sent := by intro claim h; cases h
  inFlight := by intro message h; cases h
  delivered := by intro key o h; cases h
  carried := by intro message h; cases h
  answered := by intro message h; cases h

/-- As long as consumers read clocks that are not behind the schedule of the jobs that they
are woken for, no queued job ever loses its wake-up. -/
theorem wakeUps_kept (now : Instant) (tenants : Table String TenantRow) (actions : List (DeliveryAction ρ σ))
    (hp : Runs.Guarded Delivery.step Delivery.Permitted actions (Delivery.initial now tenants))
    (hintime : Runs.Guarded Delivery.step (fun w action => w.InTime action ∧ DistinctDigests w.db) actions
      (Delivery.initial now tenants)) :
    Woken (Runs.run Delivery.step actions (Delivery.initial now tenants)) := by
  have hinv := Runs.run_invariant (fun w action (h : QueueInv w) hg => h.step hg.1 hg.2.1 hg.2.2)
    (queueInv_initial now tenants) (hp.and hintime)
  exact hinv.woken

end ReproForge

namespace ReproForge

open Sample KeyedTable

def firstMessage : QueueMessage := ⟨"case-1", "outbox_case-1", "job-1", .requested, "1.0", "acme"⟩

def firstClaim : OutboxClaim := ⟨opening, opening + 60000, "publisher", 1, firstMessage, 2⟩

/-- The first job is started and its event is sent and reported as delivered. -/
def published : List (DeliveryAction Empty Empty) :=
  [.event first, .claimPending [] ⟨opening, 60, 10, "publisher"⟩ [], .send firstClaim .accepted,
    .markDelivered [] firstClaim ⟨opening, none⟩]

/-- A consumer whose clock is a millisecond behind takes the message and acknowledges it. -/
def lagging : List (DeliveryAction Empty Empty) :=
  [.receive [] firstMessage "worker" 60 (opening - 1), .acknowledge firstMessage]

theorem first_permitted (db : Db Empty Empty) : Permitted db first where
  edits := fun _ h => h.elim
  delivers := fun _ h => h
  starts := by
    intro attempts limits input he
    simp only [first, issue, Event.call.injEq, Op.start.injEq] at he
    obtain ⟨-, -, rfl⟩ := he
    exact ⟨_, (Option.some_get _).symm⟩
  tenants := fun _ h => by cases h

/-- The worlds that the two histories pass through, evaluated together. -/
theorem published_evaluated :
    (∀ row ∈ (Runs.run Delivery.step (published.take 1) (Delivery.initial opening tenants)).db.jobs.rows,
      row.1 = ⟨"acme", "job-1"⟩ ∧ row.2.maxAttempts = 3) ∧
    (∀ row ∈ (Runs.run Delivery.step (published.take 2) (Delivery.initial opening tenants)).db.jobs.rows,
      row.1 = ⟨"acme", "job-1"⟩ ∧ row.2.maxAttempts = 3) ∧
    firstClaim ∈ (Runs.run Delivery.step (published.take 2) (Delivery.initial opening tenants)).claims ∧
    firstClaim ∈ (Runs.run Delivery.step (published.take 3) (Delivery.initial opening tenants)).sent ∧
    firstMessage ∈ (Runs.run Delivery.step (published ++ lagging.take 0) (Delivery.initial opening tenants)).inFlight ∧
    firstMessage ∈ (Runs.run Delivery.step (published ++ lagging.take 1) (Delivery.initial opening tenants)).answered ∧
    ((Runs.run Delivery.step (published ++ lagging) (Delivery.initial opening tenants)).db.jobs.get
        ⟨"acme", "job-1"⟩).map (fun j => (j.state, j.attempt, j.maxAttempts, j.caseId)) =
      some (.queued, 0, 3, "case-1") ∧
    tenantActive (Runs.run Delivery.step (published ++ lagging) (Delivery.initial opening tenants)).db "acme" = true ∧
    ((Runs.run Delivery.step (published ++ lagging) (Delivery.initial opening tenants)).db.outboxEvents.get
      ⟨"acme", "outbox_case-1"⟩).map OutboxRow.status = some .delivered ∧
    (Runs.run Delivery.step (published ++ lagging) (Delivery.initial opening tenants)).inFlight = [] := by
  decide +kernel

theorem published_permitted :
    Runs.Guarded Delivery.step Delivery.Permitted published (Delivery.initial opening tenants) := by
  obtain ⟨-, -, hclaims, hsent, -⟩ := published_evaluated
  refine Runs.guarded_of_take fun i hi => ?_
  match i, hi with
  | 0, _ => exact first_permitted _
  | 1, _ => exact trivial
  | 2, _ => exact ⟨hclaims, fun h => by cases h⟩
  | 3, _ => exact hsent

/-- The lagging consumer loses the wake-up of a queued job whose tenant is active. -/
theorem wakeUp_lost :
    Runs.Guarded Delivery.step Delivery.Permitted (published ++ lagging) (Delivery.initial opening tenants) ∧
      ¬ Woken (Runs.run Delivery.step (published ++ lagging) (Delivery.initial opening tenants)) := by
  obtain ⟨-, -, -, -, hinFlight, hanswered, hstate⟩ := published_evaluated
  constructor
  · refine Runs.guarded_append.mpr ⟨published_permitted, Runs.guarded_of_take fun i hi => ?_⟩
    rw [← Runs.run_append]
    match i, hi with
    | 0, _ => exact hinFlight
    | 1, _ => exact hanswered
  · intro hwoken
    generalize Runs.run Delivery.step (published ++ lagging) (Delivery.initial opening tenants) = w at hwoken hstate
    obtain ⟨hjob, hactive, hevent, hempty⟩ := hstate
    obtain ⟨j, hj, hcolumns⟩ := Option.map_eq_some_iff.mp hjob
    simp only [Prod.mk.injEq] at hcolumns
    obtain ⟨hqueued, hattempt, hmax, hcase⟩ := hcolumns
    have hkey : messageKey (wakeUp ⟨"acme", "job-1"⟩ j) = ⟨"acme", "outbox_case-1"⟩ := by
      rw [wakeUp, if_pos hattempt, hcase]
      rfl
    obtain ⟨o, ho, hdelivered⟩ := Option.map_eq_some_iff.mp hevent
    rcases hwoken ⟨"acme", "job-1"⟩ j ⟨hj, hqueued, hactive, by omega⟩ with ⟨o', ho', -, hstatus⟩ | hin
    · rw [hkey] at ho'
      obtain rfl := Option.some.inj (ho.symm.trans ho')
      rw [hdelivered] at hstatus
      simp at hstatus
    · have hmem := hin.inFlight
      rw [hempty] at hmem
      cases hmem

/-- One job with two attempts that can be requeued has two recovery events. -/
theorem distinctDigests_single {db : Db Empty Empty}
    (h : ∀ row ∈ db.jobs.rows, row.1 = ⟨"acme", "job-1"⟩ ∧ row.2.maxAttempts = 3) : DistinctDigests db := by
  intro key j key' j' n n' hj hj' _ hn hmax hn' hmax' hid
  obtain ⟨hkey, hthree⟩ := h _ (Table.get_eq_some.mp hj)
  obtain ⟨hkey', hthree'⟩ := h _ (Table.get_eq_some.mp hj')
  simp only at hkey hkey' hthree hthree'
  subst hkey hkey'
  have hdistinct : recoveryEventId "acme" "job-1" 1 ≠ recoveryEventId "acme" "job-1" 2 := by decide +kernel
  have hcases : n = 1 ∨ n = 2 := by omega
  have hcases' : n' = 1 ∨ n' = 2 := by omega
  refine ⟨rfl, ?_⟩
  rcases hcases with rfl | rfl <;> rcases hcases' with rfl | rfl
  · rfl
  · exact absurd hid hdistinct
  · exact absurd hid.symm hdistinct
  · rfl

theorem wakeUps_kept_sample :
    Woken (Runs.run Delivery.step (published.take 3) (Delivery.initial opening tenants)) := by
  obtain ⟨hfirst, hsecond, hclaims, -⟩ := published_evaluated
  have hstarted : DistinctDigests
      (Runs.run Delivery.step (published.take 1) (Delivery.initial opening tenants)).db :=
    distinctDigests_single hfirst
  have hclaimed : DistinctDigests
      (Runs.run Delivery.step (published.take 2) (Delivery.initial opening tenants)).db :=
    distinctDigests_single hsecond
  refine wakeUps_kept opening tenants (published.take 3) (Runs.guarded_of_take fun i hi => ?_) (Runs.guarded_of_take fun i hi => ?_)
  · match i, hi with
    | 0, _ => exact first_permitted _
    | 1, _ => exact trivial
    | 2, _ => exact ⟨hclaims, fun h => by cases h⟩
  · match i, hi with
    | 0, _ => exact ⟨trivial, distinctDigests_single (fun _ h => by cases h)⟩
    | 1, _ => exact ⟨trivial, hstarted⟩
    | 2, _ => exact ⟨trivial, hclaimed⟩

end ReproForge
